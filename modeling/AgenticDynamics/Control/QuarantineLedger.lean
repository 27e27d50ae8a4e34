import AgenticDynamics.Library.Accumulate
import AgenticDynamics.Control.Quarantine

/-!
# Reading the quarantine ledger

The ledger is a file that anything may have written. Its lines are parsed one after the other, a
line that cannot be read is an error of the registry, and the consult layer turns these errors, and
no others, into an answer.
-/

namespace AgenticDynamics.Control.Quarantine

open Python

/-! ### Errors -/

/-- An exception: one of the registry's own, with its text, or one of another class. -/
inductive Fault
  | ledger (message : String)
  | field (message : String)
  | other (exception : String)

/-- `QuarantineError`. -/
def Fault.isQuarantine : Fault → Bool
  | ledger _ => true
  | field _  => true
  | other _  => false

def Fault.text : Fault → String
  | ledger message  => message
  | field message   => message
  | other exception => exception

/-! ### Records -/

def QuarantineReason.value : QuarantineReason → String
  | budgetLeaseExpired      => "budget_lease_expired"
  | concurrencyLeaseExpired => "concurrency_lease_expired"
  | unknownCost             => "unknown_cost"
  | admissionBypass         => "admission_bypass"
  | manual                  => "manual"

/-- A record as it is read back: its entry id is what the line says, and its instants are floats. -/
structure LedgerRecord where
  entryId : String
  kind : QuarantineKind
  identity : String
  reason : QuarantineReason
  why : String
  detectedAt : PyFloat
  source : String
  runId : String
  leaseIds : List String
  costSource : Option String
  /-- The pairs that the dictionary was made of. -/
  metadata : List (Json × Json)
  lifted : Bool
  liftedAt : Option PyFloat
  liftedBy : String
  liftReason : String

/-- The record with instants on the clock, to be validated. -/
def LedgerRecord.asRecord (r : LedgerRecord) : QuarantineRecord where
  kind := r.kind
  identity := r.identity
  reason := r.reason
  why := r.why
  detectedAt := r.detectedAt.toRat
  source := r.source
  runId := r.runId
  leaseIds := r.leaseIds
  costSource := r.costSource
  lifted := r.lifted
  liftedAt := r.liftedAt.map PyFloat.toRat
  liftedBy := r.liftedBy
  liftReason := r.liftReason

def LedgerRecord.problems (r : LedgerRecord) : List String := r.asRecord.problems

/-- `QuarantineKind(value)`; the error is the exception's class. -/
def kindOf (value : Json) : Except String QuarantineKind :=
  match value with
  | .str s =>
    match [QuarantineKind.worktree, .resultNamespace, .ladderRung].find? fun k => k.value = s with
    | some kind => .ok kind
    | none      => .error "ValueError"
  | _ => .error "ValueError"

/-- `QuarantineReason(value)`. -/
def reasonOf (value : Json) : Except String QuarantineReason :=
  match value with
  | .str s =>
    match [QuarantineReason.budgetLeaseExpired, .concurrencyLeaseExpired, .unknownCost,
      .admissionBypass, .manual].find? fun r => r.value = s with
    | some reason => .ok reason
    | none        => .error "ValueError"
  | _ => .error "ValueError"

/-- One item of what a dictionary is made of. -/
def toPair (item : Json) : Except String (Json × Json) :=
  match item.toList with
  | .error e         => .error e
  | .ok [key, value] => if key.hashable then .ok (key, value) else .error "TypeError"
  | .ok _            => .error "ValueError"

/-- `dict(value)`: the pairs that it is made of. -/
def toPairs : Json → Except String (List (Json × Json))
  | .obj fields => .ok (fields.map fun kv => (.str kv.1, kv.2))
  | value       => do
    let items ← value.toList
    items.mapM toPair

/-- `payload.get(key)`. -/
def fieldOf (payload : Dict Json) (key : String) : Json := (payload.get? key).getD .null

/-- `float(value)` where the field is not null. -/
def optionalFloat (host : Host) : Json → Except String (Option PyFloat)
  | .null => .ok none
  | value => (value.toFloat host.toRuntime).map some

def requiredFields : List String :=
  ["entry_id", "kind", "identity", "reason", "detected_at", "source"]

def missingFields (payload : Dict Json) : List String :=
  requiredFields.filter fun key => match fieldOf payload key with
    | .null => true
    | _     => false

/-- The body of the `try`; the error is the class of what it raises. -/
def buildRecord (host : Host) (payload : Dict Json) : Except String LedgerRecord := do
  let text (key : String) : String := (fieldOf payload key).text host.toRuntime
  let textOr (key : String) : String :=
    (Json.orElse (some (fieldOf payload key)) (.str "")).text host.toRuntime
  let kind ← kindOf (fieldOf payload "kind")
  let reason ← reasonOf (fieldOf payload "reason")
  let detectedAt ← (fieldOf payload "detected_at").toFloat host.toRuntime
  let leaseIds ← (Json.orElse (some (fieldOf payload "lease_ids")) (.arr [])).toList
  let metadata ← toPairs (Json.orElse (some (fieldOf payload "metadata")) (.obj []))
  let liftedAt ← optionalFloat host (fieldOf payload "lifted_at")
  return {
    entryId := text "entry_id"
    kind := kind
    identity := text "identity"
    reason := reason
    why := textOr "why"
    detectedAt := detectedAt
    source := text "source"
    runId := textOr "run_id"
    leaseIds := leaseIds.map (Json.text host.toRuntime)
    costSource := if (fieldOf payload "cost_source").truthy then some (text "cost_source") else none
    metadata := metadata
    lifted := (fieldOf payload "lifted").truthy
    liftedAt := liftedAt
    liftedBy := textOr "lifted_by"
    liftReason := textOr "lift_reason" }

/-- `QuarantineRecord.from_dict`. A value without `get` is no mapping, and of what the body raises
two classes are caught; their text is left out. -/
def fromDict (host : Host) (payload : Json) : Except Fault LedgerRecord :=
  match payload with
  | .obj fields =>
    if missingFields fields ≠ [] then
      .error (.field ("quarantine record is missing field(s): " ++
        host.repr (.arr ((missingFields fields).map .str))))
    else match buildRecord host fields with
      | .ok record => .ok record
      | .error e   =>
        if e ∈ ["ValueError", "TypeError"] then .error (.field "quarantine record is malformed: ")
        else .error (.other e)
  | _ => .error (.other "AttributeError")

/-! ### The file -/

/-- What there is at the path of the ledger. -/
inductive LedgerFile
  | missing
  | unreadable (error : String)
  | undecodable
  | text (content : String)

structure Registry where
  path : String
  file : LedgerFile

/-- The lines of a ledger that are not blank, with their numbers. -/
def numberedLines (content : String) : List (ℕ × String) :=
  ((splitlines content).zipIdx 1).filterMap fun line =>
    if strip line.1 = "" then none else some (line.2, strip line.1)

def readLine (host : Host) (path : String) (line : ℕ × String) : Except Fault LedgerRecord :=
  match host.loads line.2 with
  | .ok payload => fromDict host payload
  | .error e    =>
    if e.1 = "JSONDecodeError" then
      .error (.ledger ("quarantine ledger " ++ path ++ " line " ++ toString line.1 ++
        " is not valid JSON — the ledger cannot be trusted to list every contaminated identity: " ++
        e.2))
    else .error (.other e.1)

def Registry.entries (host : Host) (registry : Registry) : Except Fault (List LedgerRecord) :=
  match registry.file with
  | .missing          => .ok []
  | .unreadable error =>
    .error (.ledger ("quarantine ledger " ++ registry.path ++ " could not be read — " ++
      "contamination status is unknown, so nothing may be assumed clean: " ++ error))
  | .undecodable      => .error (.other "UnicodeDecodeError")
  | .text content     => (numberedLines content).mapM (readLine host registry.path)

/-! ### Consulting -/

def latest (records : List LedgerRecord) : Dict LedgerRecord :=
  records.foldl (fun d r => Dict.set r.entryId r d) []

/-- `(a.detected_at, a.entry_id) < (b.detected_at, b.entry_id)`. -/
def sortsBefore (a b : LedgerRecord) : Bool :=
  if a.detectedAt = b.detectedAt ∧ a.detectedAt ≠ .nan then a.entryId < b.entryId
  else a.detectedAt.lt b.detectedAt

def Registry.active (host : Host) (registry : Registry) (kind : Option QuarantineKind) :
    Except Fault (List LedgerRecord) := do
  let records ← registry.entries host
  let live := ((latest records).map Prod.snd).filter fun r => !r.lifted
  let ofKind := live.filter fun r => kind.all fun k => r.kind = k
  return ofKind.mergeSort fun a b => !sortsBefore b a

def Registry.isQuarantined (host : Host) (registry : Registry) (kind : QuarantineKind)
    (identity : String) : Except Fault Bool := do
  let records ← registry.active host (some kind)
  return records.any fun r => r.entryId = entryIdFor kind identity

def quarantinedIdentities (host : Host) (registry : Registry) (kind : QuarantineKind)
    (onError : String) : Except Fault (List String) :=
  match registry.active host (some kind) with
  | .ok records  => .ok (records.map LedgerRecord.identity)
  | .error fault => if fault.isQuarantine ∧ onError = "empty" then .ok [] else .error fault

/-- Microseconds from the first instant of a `datetime` to the epoch. -/
def epochMicros : ℤ := 62135596800 * 1000000

/-- `_iso`: `datetime.fromtimestamp` raises on what is no instant of its years. -/
def isoOf : PyFloat → Except String String
  | .finite epoch =>
    let micros := roundHalfEven (epoch * 1000000) + epochMicros
    if 0 ≤ micros ∧ micros ≤ maxInstant then
      .ok (String.ofList (isoZ micros.toNat).toList.dropLast ++ "+00:00")
    else .error "ValueError"
  | .inf _ => .error "OverflowError"
  | .nan   => .error "ValueError"

/-- The fields of a record, with the rendered time. -/
structure RenderedRecord extends LedgerRecord where
  detectedAtIso : String

def LedgerRecord.toDict (r : LedgerRecord) : Except Fault RenderedRecord :=
  match isoOf r.detectedAt with
  | .ok iso  => .ok { toLedgerRecord := r, detectedAtIso := iso }
  | .error e => .error (.other e)

structure Board where
  error : Option String := none
  ledger : String
  kinds : List (String × List RenderedRecord) := []
  total : ℕ := 0

def quarantineBoard (host : Host) (registry : Registry) : Except Fault Board :=
  match registry.active host none with
  | .error fault =>
    if fault.isQuarantine then .ok { error := some fault.text, ledger := registry.path }
    else .error fault
  | .ok active => do
    let rendered ← active.mapM LedgerRecord.toDict
    return {
      ledger := registry.path
      kinds := [QuarantineKind.worktree, .resultNamespace, .ladderRung].map fun kind =>
        (kind.value, rendered.filter fun r => r.kind = kind)
      total := active.length }

/-- What a caller of `quarantine` gives. -/
structure MarkRequest where
  kind : QuarantineKind
  identity : String
  reason : QuarantineReason
  why : String
  source : String := "operator"
  runId : String := ""
  leaseIds : List String := []
  costSource : Option String := none
  metadata : Dict Json := []

def MarkRequest.record (request : MarkRequest) (now : PyFloat) : LedgerRecord where
  entryId := entryIdFor request.kind request.identity
  kind := request.kind
  identity := request.identity
  reason := request.reason
  why := request.why
  detectedAt := now
  source := request.source
  runId := request.runId
  leaseIds := request.leaseIds
  costSource := request.costSource
  metadata := request.metadata.map fun kv => (.str kv.1, kv.2)
  lifted := false
  liftedAt := none
  liftedBy := ""
  liftReason := ""

/-- `quarantine`: the record that is appended to the ledger; none leaves the ledger as it is. -/
def Registry.quarantine (host : Host) (registry : Registry) (request : MarkRequest)
    (now : PyFloat) : Except Fault (Option RenderedRecord) := do
  let record := request.record now
  if record.problems ≠ [] then
    .error (.field ("quarantine record " ++ host.quote record.entryId ++ " is not valid: " ++
      String.intercalate "; " record.problems))
  else if ← registry.isQuarantined host request.kind request.identity then return none
  else return some (← record.toDict)

/-! ### What escapes -/

def Overflows (host : Host) (value : Json) : Prop :=
  value.toFloat host.toRuntime = .error "OverflowError"

/-- An object whose fields are read up to a number that overflows. -/
structure ObjectEscapes (host : Host) (fields : Dict Json) : Prop where
  present : missingFields fields = []
  kind : ∃ kind, kindOf (fieldOf fields "kind") = .ok kind
  reason : ∃ reason, reasonOf (fieldOf fields "reason") = .ok reason
  overflow : Overflows host (fieldOf fields "detected_at") ∨
    (∃ x, (fieldOf fields "detected_at").toFloat host.toRuntime = .ok x) ∧
    (∃ ids, (Json.orElse (some (fieldOf fields "lease_ids")) (.arr [])).toList = .ok ids) ∧
    (∃ pairs, toPairs (Json.orElse (some (fieldOf fields "metadata")) (.obj [])) = .ok pairs) ∧
    Overflows host (fieldOf fields "lifted_at")

/-- A value that is no object, or an object that overflows. -/
def PayloadEscapes (host : Host) : Json → Prop
  | .obj fields => ObjectEscapes host fields
  | _           => True

/-- A line whose parser raises something else than a decode error, or whose value escapes. -/
def Escapes (host : Host) (line : String) : Prop :=
  (∃ e, host.loads line = .error e ∧ e.1 ≠ "JSONDecodeError") ∨
    ∃ payload, host.loads line = .ok payload ∧ PayloadEscapes host payload

def ReadsAs (host : Host) (line : String) (record : LedgerRecord) : Prop :=
  ∃ payload, host.loads line = .ok payload ∧ fromDict host payload = .ok record

section Reading

variable {host : Host} {registry : Registry} {payload : Json} {fields : Dict Json}
  {records : List LedgerRecord} {r : LedgerRecord} {line : ℕ × String} {path e : String}

lemma toFloat_error {value : Json} (h : value.toFloat host.toRuntime = .error e) :
    e = "OverflowError" ∨ e = "ValueError" ∨ e = "TypeError" := by
  rw [Json.toFloat.eq_def] at h
  repeat' split at h
  all_goals simp_all

lemma toList_error {value : Json} (h : value.toList = .error e) : e = "TypeError" := by
  rw [Json.toList.eq_def] at h
  split at h <;> simp_all

lemma toPairs_error {value : Json} (h : toPairs value = .error e) :
    e = "ValueError" ∨ e = "TypeError" := by
  have hitem : ∀ {item : Json}, toPair item = .error e → e = "ValueError" ∨ e = "TypeError" := by
    intro item hitem
    rw [toPair] at hitem
    split at hitem
    · rename_i hlist
      cases hitem
      exact .inr (toList_error hlist)
    · split_ifs at hitem
      cases hitem
      exact .inr rfl
    · cases hitem
      exact .inl rfl
  rw [toPairs.eq_def] at h
  split at h
  · cases h
  · cases hlist : Json.toList value with
    | error e' =>
      rw [hlist] at h
      cases h
      exact .inr (toList_error hlist)
    | ok items =>
      rw [hlist] at h
      obtain ⟨-, item, -, -, -, hlast⟩ := mapM_error (f := toPair) h
      exact hitem hlast

lemma kindOf_error {value : Json} (h : kindOf value = .error e) : e = "ValueError" := by
  rw [kindOf.eq_def] at h
  repeat' split at h
  all_goals simp_all

lemma reasonOf_error {value : Json} (h : reasonOf value = .error e) : e = "ValueError" := by
  rw [reasonOf.eq_def] at h
  repeat' split at h
  all_goals simp_all

lemma optionalFloat_error {value : Json} (h : optionalFloat host value = .error e) :
    value.toFloat host.toRuntime = .error e := by
  rw [optionalFloat.eq_def] at h
  split at h
  · cases h
  · cases hvalue : Json.toFloat host.toRuntime value with
    | ok x =>
      rw [hvalue] at h
      cases h
    | error e' =>
      rw [hvalue] at h
      cases h
      rfl

lemma optionalFloat_of_overflows {value : Json} (h : Overflows host value) :
    optionalFloat host value = .error "OverflowError" := by
  rw [optionalFloat.eq_def]
  split
  · exact absurd h (by simp [Overflows, Json.toFloat])
  · rw [show value.toFloat host.toRuntime = .error "OverflowError" from h]
    rfl

lemma buildRecord_error (h : buildRecord host fields = .error e) :
    (e = "ValueError" ∨ e = "TypeError") ∨
      e = "OverflowError" ∧ (missingFields fields = [] → ObjectEscapes host fields) := by
  simp only [buildRecord, bind, Except.bind, pure, Except.pure] at h
  cases hkind : kindOf (fieldOf fields "kind") with
  | error e' =>
    rw [hkind] at h
    cases h
    exact .inl (.inl (kindOf_error hkind))
  | ok kind =>
  cases hreason : reasonOf (fieldOf fields "reason") with
  | error e' =>
    rw [hkind, hreason] at h
    cases h
    exact .inl (.inl (reasonOf_error hreason))
  | ok reason =>
  cases hdetected : (fieldOf fields "detected_at").toFloat host.toRuntime with
  | error e' =>
    rw [hkind, hreason, hdetected] at h
    cases h
    rcases toFloat_error hdetected with rfl | hcaught
    · exact .inr ⟨rfl, fun hpresent => ⟨hpresent, ⟨_, hkind⟩, ⟨_, hreason⟩, .inl hdetected⟩⟩
    · exact .inl hcaught
  | ok detectedAt =>
  cases hids : (Json.orElse (some (fieldOf fields "lease_ids")) (.arr [])).toList with
  | error e' =>
    rw [hkind, hreason, hdetected, hids] at h
    cases h
    exact .inl (.inr (toList_error hids))
  | ok ids =>
  cases hpairs : toPairs (Json.orElse (some (fieldOf fields "metadata")) (.obj [])) with
  | error e' =>
    rw [hkind, hreason, hdetected, hids, hpairs] at h
    cases h
    exact .inl (toPairs_error hpairs)
  | ok pairs =>
  cases hlifted : optionalFloat host (fieldOf fields "lifted_at") with
  | error e' =>
    rw [hkind, hreason, hdetected, hids, hpairs, hlifted] at h
    cases h
    rcases toFloat_error (optionalFloat_error hlifted) with rfl | hcaught
    · exact .inr ⟨rfl, fun hpresent => ⟨hpresent, ⟨_, hkind⟩, ⟨_, hreason⟩,
        .inr ⟨⟨_, hdetected⟩, ⟨_, hids⟩, ⟨_, hpairs⟩, optionalFloat_error hlifted⟩⟩⟩
    · exact .inl hcaught
  | ok liftedAt =>
    rw [hkind, hreason, hdetected, hids, hpairs, hlifted] at h
    cases h

lemma buildRecord_of_escapes (h : ObjectEscapes host fields) :
    buildRecord host fields = .error "OverflowError" := by
  obtain ⟨kind, hkind⟩ := h.kind
  obtain ⟨reason, hreason⟩ := h.reason
  simp only [buildRecord, bind, Except.bind, pure, Except.pure, hkind, hreason]
  rcases h.overflow with hdetected | ⟨⟨_, hdetected⟩, ⟨_, hids⟩, ⟨_, hpairs⟩, hlifted⟩
  · rw [hdetected]
  · rw [hdetected, hids, hpairs, optionalFloat_of_overflows hlifted]

lemma fromDict_error {fault : Fault} (h : fromDict host payload = .error fault) :
    fault.isQuarantine = false ↔ PayloadEscapes host payload := by
  cases payload with
  | obj fields =>
    rw [fromDict] at h
    by_cases hpresent : missingFields fields = []
    · rw [if_neg (not_not.mpr hpresent)] at h
      cases hbuild : buildRecord host fields with
      | ok record =>
        rw [hbuild] at h
        cases h
      | error e =>
        simp only [hbuild] at h
        rcases buildRecord_error hbuild with hcaught | ⟨rfl, hescapes⟩
        · rw [if_pos (by simpa using hcaught)] at h
          cases h
          refine iff_of_false (by simp [Fault.isQuarantine]) fun hescapes => ?_
          rw [buildRecord_of_escapes hescapes] at hbuild
          cases hbuild
          simp at hcaught
        · rw [if_neg (by decide)] at h
          cases h
          exact iff_of_true rfl (hescapes hpresent)
    · rw [if_pos hpresent] at h
      cases h
      exact iff_of_false (by simp [Fault.isQuarantine]) fun hescapes => hpresent hescapes.present
  | _ =>
    cases h
    exact iff_of_true rfl trivial

lemma fromDict_ok_not_escapes (h : fromDict host payload = .ok r) :
    ¬ PayloadEscapes host payload := by
  cases payload with
  | obj fields =>
    intro hescapes
    rw [fromDict, if_neg (not_not.mpr hescapes.present), buildRecord_of_escapes hescapes] at h
    cases h
  | _ => cases h

lemma readLine_ok : readLine host path line = .ok r ↔ ReadsAs host line.2 r := by
  rw [readLine, ReadsAs]
  cases host.loads line.2 with
  | ok payload => simp
  | error e =>
    simp only
    split_ifs <;> simp

lemma readLine_error {fault : Fault} (h : readLine host path line = .error fault) :
    fault.isQuarantine = false ↔ Escapes host line.2 := by
  rw [readLine] at h
  rw [Escapes]
  cases hloads : host.loads line.2 with
  | ok payload =>
    rw [hloads] at h
    rw [fromDict_error h]
    simp
  | error e =>
    simp only [hloads] at h
    split_ifs at h with hdecode
    · cases h
      simp [Fault.isQuarantine, hdecode]
    · cases h
      simp [Fault.isQuarantine, hdecode]

lemma not_escapes_of_reads (h : ReadsAs host line.2 r) : ¬ Escapes host line.2 := by
  obtain ⟨payload, hloads, hrecord⟩ := h
  rintro (⟨e, herror, -⟩ | ⟨payload', hloads', hescapes⟩)
  · rw [hloads] at herror
    cases herror
  · rw [hloads, Except.ok.injEq] at hloads'
    exact fromDict_ok_not_escapes hrecord (hloads' ▸ hescapes)

end Reading

/-! ### What the ledger says -/

def LastOf (records : List LedgerRecord) (r : LedgerRecord) : Prop :=
  ∃ pre post, records = pre ++ r :: post ∧ ∀ r' ∈ post, r'.entryId ≠ r.entryId

section Replay

variable {records : List LedgerRecord} {r x : LedgerRecord} {kv : String × LedgerRecord}

lemma lastOf_concat : LastOf (records ++ [x]) r ↔
    r = x ∨ LastOf records r ∧ x.entryId ≠ r.entryId := by
  constructor
  · rintro ⟨pre, post, heq, hlast⟩
    rcases List.eq_nil_or_concat post with rfl | ⟨post, y, rfl⟩
    · obtain ⟨-, hsame⟩ := List.append_inj' heq rfl
      exact .inl (List.cons.inj hsame).1.symm
    · rw [List.concat_eq_append, ← List.cons_append, ← List.append_assoc] at heq
      obtain ⟨hold, hnew⟩ := List.append_inj' heq rfl
      cases hnew
      rw [List.concat_eq_append] at hlast
      refine .inr ⟨⟨pre, post, hold, fun r' hr' => ?_⟩, ?_⟩
      · exact hlast r' (List.mem_append_left _ hr')
      · exact hlast x (List.mem_append_right _ (List.mem_singleton_self x))
  · rintro (rfl | ⟨⟨pre, post, rfl, hlast⟩, hne⟩)
    · exact ⟨records, [], rfl, by simp⟩
    · refine ⟨pre, post ++ [x], by simp, fun r' hr' => ?_⟩
      rcases List.mem_append.mp hr' with hr' | hr'
      · exact hlast r' hr'
      · rwa [List.mem_singleton.mp hr']

lemma mem_latest : kv ∈ latest records ↔ kv.1 = kv.2.entryId ∧ LastOf records kv.2 := by
  induction records using List.reverseRecOn generalizing kv with
  | nil =>
    refine iff_of_false (by simp [latest]) ?_
    rintro ⟨-, pre, post, heq, -⟩
    simp at heq
  | append_singleton records x ih =>
    have hset : latest (records ++ [x]) = Dict.set x.entryId x (latest records) := by
      simp [latest]
    rw [hset, Dict.mem_set, ih, lastOf_concat]
    constructor
    · rintro (rfl | ⟨⟨hown, hlast⟩, hne⟩)
      · exact ⟨rfl, .inl rfl⟩
      · exact ⟨hown, .inr ⟨hlast, fun heq => hne (hown.trans heq.symm)⟩⟩
    · rintro ⟨hown, hsame | ⟨hlast, hne⟩⟩
      · exact .inl (Prod.ext (hown.trans (hsame ▸ rfl)) hsame)
      · exact .inr ⟨⟨hown, hlast⟩, fun heq => hne (heq.symm.trans hown)⟩

variable {host : Host} {registry : Registry} {kind : Option QuarantineKind}
  {answer : List LedgerRecord}

lemma active_ok (h : registry.active host kind = .ok answer) :
    ∃ records, registry.entries host = .ok records ∧
      ∀ r, r ∈ answer ↔ LastOf records r ∧ r.lifted = false ∧ ∀ k ∈ kind, r.kind = k := by
  rw [Registry.active, bind_eq_ok] at h
  obtain ⟨records, hrecords, hanswer⟩ := h
  refine ⟨records, hrecords, fun r => ?_⟩
  cases hanswer
  have hmem : r ∈ (latest records).map Prod.snd ↔ LastOf records r := by
    rw [List.mem_map]
    constructor
    · rintro ⟨kv, hkv, rfl⟩
      exact (mem_latest.mp hkv).2
    · exact fun hlast => ⟨(r.entryId, r), mem_latest.mpr ⟨rfl, hlast⟩, rfl⟩
  rw [List.mem_mergeSort, List.mem_filter, List.mem_filter, hmem, and_assoc]
  cases kind <;> simp

lemma active_of_entries (h : registry.entries host = .ok records) :
    ∃ answer, registry.active host kind = .ok answer := by
  rw [Registry.active, h]
  exact ⟨_, rfl⟩

lemma active_error {fault : Fault} :
    registry.active host kind = .error fault ↔ registry.entries host = .error fault := by
  rw [Registry.active]
  cases registry.entries host with
  | ok records => exact iff_of_false (by rintro ⟨⟩) (by rintro ⟨⟩)
  | error fault' => exact Iff.rfl

end Replay

/-! ### The consult layer -/

def ledgerLines : LedgerFile → List (ℕ × String)
  | .text content => numberedLines content
  | _             => []

/-- The consult layer answers from a valid ledger or raises an error of the registry, its tolerant
questions never raise, and a mark that stands is not written again. -/
structure ConsultSound (host : Host) (registry : Registry) : Prop where
  answers : ∀ kind answer, registry.active host kind = .ok answer →
    ∃ records, registry.entries host = .ok records ∧ (∀ r ∈ records, r.problems = []) ∧
      ∀ r, r ∈ answer ↔ LastOf records r ∧ r.lifted = false ∧ ∀ k ∈ kind, r.kind = k
  refuses : ∀ kind fault, registry.active host kind = .error fault → fault.isQuarantine = true
  identities : ∀ kind, ∃ ids, quarantinedIdentities host registry kind "empty" = .ok ids
  board : ∃ board, quarantineBoard host registry = .ok board
  again : ∀ (request : MarkRequest) now record,
    registry.isQuarantined host request.kind request.identity = .ok true →
      registry.quarantine host request now ≠ .ok (some record)

structure Legible (host : Host) (file : LedgerFile) : Prop where
  decoded : file ≠ .undecodable
  /-- The first line that is not read does not escape. -/
  refused : ∀ pre line post, ledgerLines file = pre ++ line :: post →
    (∀ l ∈ pre, ∃ r, ReadsAs host l.2 r) → ¬ Escapes host line.2
  /-- If all lines are read, their records are complete, and what stands can be rendered. -/
  complete : ∀ records, List.Forall₂ (fun line r => ReadsAs host line.2 r) (ledgerLines file)
    records → ∀ r ∈ records, r.problems = []
  rendered : ∀ records, List.Forall₂ (fun line r => ReadsAs host line.2 r) (ledgerLines file)
    records → ∀ r, LastOf records r → r.lifted = false → ∃ iso, isoOf r.detectedAt = .ok iso

section Consult

variable {host : Host} {registry : Registry} {records : List LedgerRecord} {fault : Fault}

lemma entries_ok (h : registry.entries host = .ok records) :
    List.Forall₂ (fun line r => ReadsAs host line.2 r) (ledgerLines registry.file) records := by
  rw [Registry.entries] at h
  split at h <;> rename_i hfile
  · cases h
    rw [hfile]
    exact .nil
  · cases h
  · cases h
  · rw [hfile]
    exact (forall₂_of_mapM h).imp fun _ _ => readLine_ok.mp

lemma entries_of_forall₂ {l : ℕ × String} (hl : l ∈ ledgerLines registry.file)
    (h : List.Forall₂ (fun line r => ReadsAs host line.2 r) (ledgerLines registry.file) records) :
    registry.entries host = .ok records := by
  rw [Registry.entries]
  cases hfile : registry.file with
  | text content =>
    rw [hfile] at h
    exact mapM_of_forall₂ (h.imp fun _ _ => readLine_ok.mpr)
  | _ =>
    rw [hfile] at hl
    cases hl

lemma entries_error (h : registry.entries host = .error fault)
    (hdecoded : registry.file ≠ .undecodable) :
    fault.isQuarantine = true ∨ ∃ pre line post, ledgerLines registry.file = pre ++ line :: post ∧
      (∀ l ∈ pre, ∃ r, ReadsAs host l.2 r) ∧ Escapes host line.2 := by
  rw [Registry.entries] at h
  split at h <;> rename_i hfile
  · cases h
  · cases h
    exact .inl rfl
  · exact absurd hfile hdecoded
  · obtain ⟨pre, line, post, hlines, hpre, hline⟩ := mapM_error h
    cases hfault : fault.isQuarantine with
    | true => exact .inl rfl
    | false =>
      refine .inr ⟨pre, line, post, by rw [hfile]; exact hlines, fun l hl => ?_,
        (readLine_error hline).mp hfault⟩
      obtain ⟨r, hr⟩ := hpre l hl
      exact ⟨r, readLine_ok.mp hr⟩

lemma entries_of_escapes {pre post : List (ℕ × String)} {line : ℕ × String}
    (hlines : ledgerLines registry.file = pre ++ line :: post)
    (hpre : ∀ l ∈ pre, ∃ r, ReadsAs host l.2 r) (hescapes : Escapes host line.2) :
    ∃ fault, registry.entries host = .error fault ∧ fault.isQuarantine = false := by
  cases hfile : registry.file with
  | text content =>
    cases hline : readLine host registry.path line with
    | ok r => exact absurd hescapes (not_escapes_of_reads (readLine_ok.mp hline))
    | error fault =>
      refine ⟨fault, ?_, (readLine_error hline).mpr hescapes⟩
      have hcontent : numberedLines content = pre ++ line :: post := by
        rw [hfile] at hlines
        exact hlines
      simp only [Registry.entries, hfile, hcontent]
      refine mapM_of_error (fun l hl => ?_) hline
      obtain ⟨r, hr⟩ := hpre l hl
      exact ⟨r, readLine_ok.mpr hr⟩
  | _ =>
    rw [hfile] at hlines
    exact absurd hlines (by simp [ledgerLines])

lemma toDict_ok {r : LedgerRecord} :
    (∃ rendered, r.toDict = .ok rendered) ↔ ∃ iso, isoOf r.detectedAt = .ok iso := by
  rw [LedgerRecord.toDict]
  cases isoOf r.detectedAt with
  | ok iso => simp
  | error e => simp

lemma board_ok : (∃ board, quarantineBoard host registry = .ok board) ↔
    (∀ fault, registry.entries host = .error fault → fault.isQuarantine = true) ∧
      ∀ records, registry.entries host = .ok records →
        ∀ r, LastOf records r → r.lifted = false → ∃ iso, isoOf r.detectedAt = .ok iso := by
  rw [quarantineBoard]
  cases hactive : registry.active host none with
  | error fault =>
    have hentries := active_error.mp hactive
    cases hfault : fault.isQuarantine with
    | true =>
      refine iff_of_true ⟨_, if_pos hfault⟩ ⟨fun fault' h => ?_, fun records h => ?_⟩
      · rw [hentries, Except.error.injEq] at h
        exact h ▸ hfault
      · rw [hentries] at h
        cases h
    | false =>
      refine iff_of_false (by simp [hfault]) fun h => ?_
      have htrue := h.1 fault hentries
      rw [hfault] at htrue
      cases htrue
  | ok answer =>
    obtain ⟨records, hentries, hmem⟩ := active_ok hactive
    have hall : (∃ rendered, answer.mapM LedgerRecord.toDict = .ok rendered) ↔
        ∀ r, LastOf records r → r.lifted = false → ∃ iso, isoOf r.detectedAt = .ok iso := by
      rw [mapM_isOk]
      refine forall_congr' fun r => ?_
      rw [hmem r, toDict_ok]
      simp
    simp only [bind_eq_ok, pure, Except.pure, Except.ok.injEq]
    constructor
    · rintro ⟨board, rendered, hrendered, -⟩
      refine ⟨fun fault h => ?_, fun records' h => ?_⟩
      · rw [hentries] at h
        cases h
      · rw [hentries, Except.ok.injEq] at h
        exact h ▸ hall.mp ⟨rendered, hrendered⟩
    · rintro ⟨-, h⟩
      obtain ⟨rendered, hrendered⟩ := hall.mpr (h records hentries)
      exact ⟨_, rendered, hrendered, rfl⟩

lemma identities_ok
    (h : ∀ fault, registry.entries host = .error fault → fault.isQuarantine = true)
    (kind : QuarantineKind) :
    ∃ ids, quarantinedIdentities host registry kind "empty" = .ok ids := by
  rw [quarantinedIdentities]
  cases hactive : registry.active host (some kind) with
  | ok answer => exact ⟨_, rfl⟩
  | error fault => exact ⟨[], if_pos ⟨h fault (active_error.mp hactive), rfl⟩⟩

lemma quarantine_again {request : MarkRequest}
    (h : registry.isQuarantined host request.kind request.identity = .ok true) (now : PyFloat)
    (record : RenderedRecord) : registry.quarantine host request now ≠ .ok (some record) := by
  rw [Registry.quarantine]
  split_ifs
  · rintro ⟨⟩
  · rw [h]
    rintro ⟨⟩

/-- Whatever the file holds: the consult layer is sound exactly if the file is legible. -/
theorem consult_sound_iff (host : Host) (registry : Registry) :
    ConsultSound host registry ↔ Legible host registry.file := by
  constructor
  · intro h
    have hrefuses : ∀ fault, registry.entries host = .error fault → fault.isQuarantine = true :=
      fun fault hfault => h.refuses none fault (active_error.mpr hfault)
    have hread : ∀ records, List.Forall₂ (fun line r => ReadsAs host line.2 r)
        (ledgerLines registry.file) records →
          ∀ r ∈ records, registry.entries host = .ok records := by
      intro records hlines r hr
      cases hledger : ledgerLines registry.file with
      | nil =>
        rw [hledger, List.forall₂_nil_left_iff] at hlines
        rw [hlines] at hr
        cases hr
      | cons l lines => exact entries_of_forall₂ (hledger ▸ List.mem_cons_self) hlines
    refine ⟨fun hfile => ?_, fun pre line post hlines hpre hescapes => ?_,
      fun records hlines r hr => ?_, fun records hlines r hlast => ?_⟩
    · have hfault := hrefuses (.other "UnicodeDecodeError") (by rw [Registry.entries, hfile])
      cases hfault
    · obtain ⟨fault, hfault, hother⟩ := entries_of_escapes hlines hpre hescapes
      rw [hrefuses fault hfault] at hother
      cases hother
    · have hentries := hread records hlines r hr
      obtain ⟨answer, hanswer⟩ : ∃ answer, registry.active host none = .ok answer :=
        active_of_entries hentries
      obtain ⟨records', hentries', hcomplete, -⟩ := h.answers none answer hanswer
      rw [hentries, Except.ok.injEq] at hentries'
      exact hcomplete r (hentries' ▸ hr)
    · have hr : r ∈ records := by
        obtain ⟨pre, post, rfl, -⟩ := hlast
        simp
      exact (board_ok.mp h.board).2 records (hread records hlines r hr) r hlast
  · intro h
    have hrefuses : ∀ fault, registry.entries host = .error fault → fault.isQuarantine = true := by
      intro fault hfault
      rcases entries_error hfault h.decoded with hown | ⟨pre, line, post, hlines, hpre, hescapes⟩
      · exact hown
      · exact absurd hescapes (h.refused pre line post hlines hpre)
    refine ⟨fun kind answer hanswer => ?_, fun kind fault hfault => ?_, identities_ok hrefuses, ?_,
      fun request now record hstands => quarantine_again hstands now record⟩
    · obtain ⟨records, hentries, hmem⟩ := active_ok hanswer
      exact ⟨records, hentries, h.complete records (entries_ok hentries), hmem⟩
    · exact hrefuses fault (active_error.mp hfault)
    · exact board_ok.mpr ⟨hrefuses, fun records hentries =>
        h.rendered records (entries_ok hentries)⟩

end Consult

/-! ### A file that crashes the board -/

def plainHost : Host where
  loads _ := .ok (.arr [])
  repr _ := ""
  upper := id
  lower := id
  sha256 := id
  dumps _ := ""
  fromisoformat _ := none

/-- A ledger with the line `[]`. -/
def listLine : Registry where
  path := "quarantine.jsonl"
  file := .text "[]"

/-- The line is valid JSON and no object: the `AttributeError` passes every guard. -/
theorem list_line_escapes : ¬ ConsultSound plainHost listLine := by
  intro h
  obtain ⟨board, hboard⟩ := h.board
  have hlines : numberedLines "[]" = [(1, "[]")] := by decide +kernel
  have hentries : listLine.entries plainHost = .error (.other "AttributeError") := by
    simp only [Registry.entries, listLine, hlines]
    rfl
  rw [quarantineBoard, active_error.mpr hentries] at hboard
  cases hboard

end AgenticDynamics.Control.Quarantine
