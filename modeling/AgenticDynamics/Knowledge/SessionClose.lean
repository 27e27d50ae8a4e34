import AgenticDynamics.Knowledge.Beliefs

/-!
# Closing and opening sessions

Closing a session writes its record into the artifact directory and announces it; opening reads the
last close back from there. The times of files are numbers, and every announcement is taken.
-/

namespace AgenticDynamics.Knowledge.SessionSpine

open Python StableSort
open Beliefs (BeliefError textOf listValue isText aioAclScope repositoryIdDefault)

/-! ### Bodies -/

/-- The canonical content of a session but for its close sequence. -/
structure SessionBody where
  sessionDate : String
  slug : String
  merged : List String
  openThreads : List String
  parked : List String
  wavesRun : List String
  selfNotes : String
  deriving DecidableEq

/-- `payload`, with its close sequence. -/
def SessionBody.payload (b : SessionBody) (closeSeq : ℤ) : Dict Json :=
  [("session_date", .str b.sessionDate),
    ("slug", .str b.slug),
    ("merged", .arr (b.merged.map .str)),
    ("open_threads", .arr (b.openThreads.map .str)),
    ("parked", .arr (b.parked.map .str)),
    ("waves_run", .arr (b.wavesRun.map .str)),
    ("self_notes", .str b.selfNotes),
    ("close_seq", .int closeSeq),
    ("actor", .str "aio"),
    ("scope", .str (aioAclScope repositoryIdDefault))]

section Model

variable (host : Host)

def contentValue (session : Dict Json) (field : String) : Except BeliefError String :=
  let value := strip (textOf host session field)
  if value = "" then
    .error (.value ("session has no " ++ host.quote field ++
      " — cannot derive a stable session record"))
  else .ok value

/-- What `session_payload` reads of a session. -/
def sessionBody (session : Dict Json) : Except BeliefError SessionBody := do
  let sessionDate ← contentValue host session "session_date"
  let slug ← contentValue host session "slug"
  let merged ← listValue host session "merged"
  let openThreads ← listValue host session "open_threads"
  let parked ← listValue host session "parked"
  let wavesRun ← listValue host session "waves_run"
  .ok { sessionDate, slug, merged, openThreads, parked, wavesRun,
        selfNotes := textOf host session "self_notes" }

/-! ### Records -/

def proseList (title : String) (items : List String) : List String :=
  if items = [] then [] else [title ++ "; ".intercalate (items.take 5)]

/-- The prose of `_session_prose_summary`. -/
def prose (slug date : String) (b : SessionBody) : String :=
  " ".intercalate (["session close " ++ date ++ " (" ++ slug ++ "):"] ++
    (proseList ("merged " ++ toString b.merged.length ++ ": ") b.merged ++
    (proseList "parked: " b.parked ++
    (proseList "open threads: " b.openThreads ++
    if b.selfNotes = "" then []
    else ["self-notes: " ++ String.ofList (b.selfNotes.toList.take 300)]))))

def separator : String := " || json: "

/-- `_session_prose_summary`. -/
def sessionText (session : Dict Json) (b : SessionBody) (closeSeq : ℤ) : String :=
  let slug := (Json.orElse (Dict.get? "slug" session) (.str b.slug)).text host.toRuntime
  let date :=
    (Json.orElse (Dict.get? "session_date" session) (.str b.sessionDate)).text host.toRuntime
  prose slug date b ++ separator ++ host.dumps (.obj (b.payload closeSeq))

/-- The arguments that `build_session_record` gives to `build_record`. -/
def sessionParts (b : SessionBody) (text : String) : RecordParts where
  sourceType := "meta_session"
  sourceUri := "session:" ++ b.slug
  logicalLocator := b.slug
  repositoryId := repositoryIdDefault
  revision := "session/unrevisioned"
  authority := .advisory
  evidenceClass := "[H]"
  text := text
  extra :=
    { commitSha := some ""
      extractorVersion := some "session/v1"
      aclScope := some (aioAclScope repositoryIdDefault)
      observedAt := some b.sessionDate }

/-! ### The artifact directory -/

/-- A file; none stands for bytes that cannot be read or decoded. -/
structure ArtifactFile where
  name : String
  content : Option String
  mtime : ℕ

def sessionArtifactFiles (dir : List ArtifactFile) : List ArtifactFile := sortBy (·.name) dir

/-- The characters behind the first separator. -/
def afterSeparator : List Char → Option (List Char)
  | []      => none
  | c :: cs =>
    if separator.toList.isPrefixOf (c :: cs) then some ((c :: cs).drop separator.toList.length)
    else afterSeparator cs

def jsonPart (text : String) : String :=
  String.ofList ((afterSeparator text.toList).getD text.toList)

inductive SpineKind
  | foreign
  | anomaly
  | record (artifact payload : Dict Json)

def classifySessionArtifact : Option String → SpineKind
  | none     => .foreign
  | some raw =>
    match host.loads raw with
    | .ok (.obj artifact) =>
      if ¬ isText "session/v1" (KnowledgeRecord.lookup artifact "extractor_version") then .foreign
      else if ¬ isText repositoryIdDefault (KnowledgeRecord.lookup artifact "repository_id") then
        .foreign
      else match KnowledgeRecord.lookup artifact "text" with
        | .str text =>
          match host.loads (jsonPart text) with
          | .ok (.obj payload) =>
            if ¬ isText "aio" (KnowledgeRecord.lookup payload "actor") then .anomaly
            else if ¬ isText (aioAclScope repositoryIdDefault)
              (KnowledgeRecord.lookup payload "scope") then .anomaly
            else .record artifact payload
          | _ => .anomaly
        | _ => .anomaly
    | _ => .foreign

/-- A file of the spine with what it holds. -/
structure Triple where
  file : ArtifactFile
  artifact : Dict Json
  payload : Dict Json

def triple? (file : ArtifactFile) : Option Triple :=
  match classifySessionArtifact host file.content with
  | .record artifact payload => some { file, artifact, payload }
  | _                        => none

def scanSessionRecords (dir : List ArtifactFile) : List Triple × List String :=
  ((sessionArtifactFiles dir).filterMap (triple? host),
  (sessionArtifactFiles dir).filterMap fun file =>
    match classifySessionArtifact host file.content with
    | .anomaly =>
      some (file.name ++ ": a session/v1 artifact that is not a readable AIO org-root " ++
        "session record — excluded from the spine read")
    | _        => none)

/-! ### Closing -/

/-- The record is of the date, and of another slug; both are compared with the values themselves. -/
def isPeer (sessionDate slug : Json) (t : Triple) : Bool :=
  isText (textOf host t.payload "session_date") sessionDate &&
    !isText (textOf host t.payload "slug") slug

def closeSequenceNumber (sessionDate slug : Json) (dir : List ArtifactFile) : ℤ :=
  if !sessionDate.truthy || !slug.truthy then 1
  else (((sessionArtifactFiles dir).filterMap (triple? host)).countP
    (isPeer host sessionDate slug) : ℤ) + 1

/-- The artifact directory and the checkpoints of the stream. -/
structure Store where
  dir : List ArtifactFile
  checkpoint : Dict String

def writeFile (file : ArtifactFile) (dir : List ArtifactFile) : List ArtifactFile :=
  if dir.any (·.name = file.name) then dir.map fun f => if f.name = file.name then file else f
  else dir ++ [file]

/-- A call of `close_session`; the clock reads `now`, and a file written gets the time. -/
structure Close where
  session : Dict Json
  now : String
  time : ℕ

inductive Status
  | closed | noOp
  deriving DecidableEq

structure SessionCloseResult where
  record : KnowledgeRecord
  status : Status

def closeSession (store : Store) (c : Close) : Except BeliefError (SessionCloseResult × Store) := do
  let closeSeq := closeSequenceNumber host
    (Json.orElse (Dict.get? "session_date" c.session) (.str ""))
    (Json.orElse (Dict.get? "slug" c.session) (.str "")) store.dir
  let body ← sessionBody host c.session
  let record ← (buildRecord host (sessionParts body (sessionText host c.session body closeSeq))
    c.now).mapError .record
  let file : ArtifactFile :=
    { name := record.knowledgeId ++ ".json"
      content := some (recordToArtifact host record)
      mtime := c.time }
  let durable := store.dir.any fun f => f.name = file.name && f.content = file.content
  let published := (Dict.get? record.knowledgeId store.checkpoint).isSome
  let store :=
    { dir := if durable then store.dir else writeFile file store.dir
      checkpoint :=
        if published then store.checkpoint
        else Dict.set record.knowledgeId record.indexedAt store.checkpoint }
  .ok ({ record, status := if durable && published then .noOp else .closed }, store)

/-- A sequence of calls, all of which are accepted. -/
def closeAll (store : Store) : List Close → Except BeliefError Store
  | []      => .ok store
  | c :: cs => do
    let (_, store) ← closeSession host store c
    closeAll store cs

/-! ### Opening -/

/-- `int(payload.get("close_seq") or 0)`. -/
def closeSeqOf (payload : Dict Json) : Except String ℤ :=
  (Json.orElse (Dict.get? "close_seq" payload) (.int 0)).toInt host.toRuntime

/-- The tuple of `_selection_key`. -/
structure SelectionKey where
  sessionDate : String
  closeSeq : ℤ
  slug : String
  mtime : ℕ
  name : String

/-- `a < b` on tuples. -/
def SelectionKey.lt (a b : SelectionKey) : Bool :=
  a.sessionDate < b.sessionDate || (a.sessionDate = b.sessionDate &&
    (a.closeSeq < b.closeSeq || (a.closeSeq = b.closeSeq &&
      (a.slug < b.slug || (a.slug = b.slug &&
        (a.mtime < b.mtime || (a.mtime = b.mtime && decide (a.name < b.name))))))))

def selectionKey (t : Triple) (closeSeq : ℤ) : SelectionKey where
  sessionDate := textOf host t.payload "session_date"
  closeSeq := closeSeq
  slug := textOf host t.payload "slug"
  mtime := t.file.mtime
  name := t.file.name

/-- `max` by a key: the first element that no other is greater than. -/
def maxByKey {α : Type} (key : α → SelectionKey) : List α → Option α
  | []      => none
  | x :: xs => some (xs.foldl (fun best y => if (key best).lt (key y) then y else best) x)

structure SessionOpenResult where
  opened : Option Triple
  requestedSlug : Option String
  candidates : ℕ
  warnings : List String

/-- The record is of the slug, where one is requested. -/
def isAsked (requestedSlug : Option String) (t : Triple) : Bool :=
  match requestedSlug with
  | none      => true
  | some slug => textOf host t.payload "slug" = slug

def openSession (slug : Option String) (dir : List ArtifactFile) :
    Except String SessionOpenResult := do
  let requestedSlug := (slug.map strip).filter (· ≠ "")
  let (triples, warnings) := scanSessionRecords host dir
  let keyed ← (triples.filter (isAsked host requestedSlug)).mapM fun t => do
    let closeSeq ← closeSeqOf host t.payload
    .ok (selectionKey host t closeSeq, t)
  .ok
    { opened := (maxByKey Prod.fst keyed).map Prod.snd
      requestedSlug
      candidates := triples.length
      warnings }

end Model

end AgenticDynamics.Knowledge.SessionSpine
