import AgenticDynamics.Control.PromotionClaim

/-!
# Promoters

Several calls that promote one candidate of one run. A call records its intent, claims the run,
pushes, records the outcome and closes the run's row, and other writers move the row meanwhile.
-/

namespace AgenticDynamics.Control

open Python Script

/-! ### The journal -/

/-- The arguments in which the calls differ. -/
structure PromoteArgs where
  base : String := "main"
  operator : String
  rationale : String
  rationaleRef : String := ""
  totalCost : Json := .int 0

/-- What the calls have in common: the run, its spec and its candidate. -/
structure Promotion where
  runId : String
  spec : String
  candidate : String

def promotionPrefix : String := "[workflow]"

def Promotion.actKey (p : Promotion) : String :=
  "promote:" ++ p.spec ++ ":" ++ firstChars 12 p.candidate

def Promotion.intent (p : Promotion) (a : PromoteArgs) (key : String) : RecordCommandIntent where
  verb := "promote"
  actor := a.operator
  rationale := a.rationale
  rationaleRef := a.rationaleRef
  runId := p.runId
  candidateSha := p.candidate
  targetKind := if p.runId = "" then "spec" else "run"
  targetId := orElse (some p.runId) p.spec
  idempotencyKey := key
  detail := [("spec", .str p.spec), ("base", .str a.base),
    ("subject", .str (promotionPrefix ++ " " ++ p.spec)), ("total_cost_usd", a.totalCost)]

def attemptKey (actKey : String) (n : ℕ) : String :=
  if n = 1 then actKey else actKey ++ "#" ++ toString n

section Journal

variable (host : Host) (p : Promotion) (a : PromoteArgs)

/-- The refusal of a call whose intent cannot be recorded. -/
def unrecorded (why : String) : PromoteError :=
  .refused (why ++ " — recording is part of the act; nothing was pushed")

/-- The search of `begin_command` for the row of an attempt: one that has no outcome is used again,
one that completed is handed back, one that failed or was refused is passed over. -/
def beginFrom (fault : Option DbFault) (hex clock : String) (s : ControlTables) :
    List ℕ → ControlTables × Except PromoteError CommandRecord
  | []        => (s, .error (unrecorded ("command journal: too many attempts recorded for act " ++
      host.quote p.actKey ++ " (99)")))
  | n :: rest =>
    match s.journal.withKey? (attemptKey p.actKey n) with
    | none          =>
      match faulty fault
        (ControlTables.recordIntent host (p.intent a (attemptKey p.actKey n)) hex clock) s with
      | (t, .error e)    =>
        (t, .error (unrecorded ("command journal unavailable: " ++ e.message host.quote)))
      | (t, .ok command) => (t, .ok command)
    | some existing =>
      if existing.state = .intent ∨ existing.state = .completed then (s, .ok existing)
      else beginFrom fault hex clock s rest

/-- `_default_journal_intent`, with what keeps the database from opening and where recording fails,
if anything does. -/
def journalIntent (opening : Option DbError) (fault : Option DbFault) (hex clock : String)
    (s : ControlTables) : ControlTables × Except PromoteError CommandRecord :=
  if strip a.operator = "" then
    (s, .error (unrecorded
      "the command journal requires an actor — an anonymous intent is not a record"))
  else
    match opening with
    | some e => (s, .error (unrecorded ("command journal unavailable: " ++ e.message host.quote)))
    | none   => beginFrom host p a fault hex clock s (List.range' 1 99)

/-- `_default_journal_receipt`; what keeps it from being written is a warning. -/
def journalReceipt (command : CommandRecord) (state : CommandState) (receipt : Dict Json)
    (fault : Option DbFault) (clock : String) (s : ControlTables) : ControlTables :=
  (faulty fault (ControlTables.complete host
    { commandId := command.commandId, state := state.value, receipt := receipt } clock) s).1

end Journal

/-! ### The close -/

/-- A row of `promotions`. -/
structure PromotionRecord where
  runId : String
  candidateSha : String
  baseSha : String
  squashSha : String
  pushedAt : String
  operator : String
  deriving DecidableEq

def rowCloseReason (base squashSha candidateSha : String) : String :=
  "promoted to " ++ base ++ " as " ++ firstChars 12 squashSha ++ " (squash of " ++
    firstChars 12 candidateSha ++ ")"

/-- What the close meets: what keeps the database from opening, its statements, and its commit. -/
structure CloseScene where
  opening : Option DbError := none
  claim : Oracle DbError := { fault := fun _ => none, draw := fun _ => "" }
  merge : Oracle DbError := { fault := fun _ => none, draw := fun _ => "" }
  commit : Option DbError := none
  clock : String := ""

/-- `_default_close_row`: the hops to merged and the row of `promotions` in one transaction, or
nothing. -/
def closeRow (p : Promotion) (a : PromoteArgs) (baseSha squashSha : String) (scene : CloseScene)
    (s : ControlTables) (promotions : List PromotionRecord) :
    Option (ControlTables × List PromotionRecord) :=
  match scene.opening, s.db.getRun p.runId, require p.candidate "candidate_sha", scene.commit with
  | none, some run, .ok sha, none =>
    let rowSha := strip run.candidateSha
    if rowSha ≠ "" ∧ ¬ startsWith p.candidate rowSha then none
    else if run.state ≠ .promoting ∧ run.state ≠ .promotable then none
    else
      let hop (target : RunState) : TransitionRun :=
        { runId := p.runId, newState := .member target
          reason := rowCloseReason a.base squashSha p.candidate, actor := rowCloseActor }
      let claimed :=
        if run.state = .promotable then transitionRun (hop .promoting) scene.claim { store := s.db }
        else (.ok run, { store := s.db })
      match claimed with
      | (.error _, _)    => none
      | (.ok _, session) =>
        match transitionRun (hop .merged) scene.merge session with
        | (.error _, _)   => none
        | (.ok _, merged) =>
          if promotions.any fun r => r.runId = p.runId ∧ r.candidateSha = sha then none
          else some ({ s with db := merged.store }, promotions ++ [⟨p.runId, sha, baseSha, squashSha,
            scene.clock, a.operator⟩])
  | _, _, _, _                    => none

/-! ### The calls -/

/-- Where a call stands: at its claim, at the receipt of a refused claim, at its push, at the
receipt of a push that failed, at the receipt of one that landed, or at the close. -/
inductive Promoter
  | idle
  | intended (a : PromoteArgs) (command : CommandRecord)
  | refusing (a : PromoteArgs) (command : CommandRecord) (refusal : String)
  | claimed (a : PromoteArgs) (command : CommandRecord)
  | failing (a : PromoteArgs) (command : CommandRecord) (error : String)
  | landed (a : PromoteArgs) (command : CommandRecord) (baseSha squashSha : String)
  | closing (a : PromoteArgs) (baseSha squashSha : String)

namespace Promoter

/-- The journal row whose outcome the call still has to record. -/
def command? : Promoter → Option CommandRecord
  | idle                 => none
  | intended _ command   => command
  | refusing _ command _ => command
  | claimed _ command    => command
  | failing _ command _  => command
  | landed _ command _ _ => command
  | closing _ _ _        => none

/-- The call was granted the run, and its push has not failed. -/
def Holds : Promoter → Prop
  | claimed _ _    => True
  | landed _ _ _ _ => True
  | closing _ _ _  => True
  | _              => False

def Claiming : Promoter → Prop
  | intended _ _ => True
  | _            => False

def Pushing : Promoter → Prop
  | claimed _ _ => True
  | _           => False

/-- The call's push landed, and its receipt is not written. -/
def Landed : Promoter → Prop
  | landed _ _ _ _ => True
  | _              => False

end Promoter

/-- The database, the calls, the pushes that landed with the ids of their journal rows, and whether a
close was committed. -/
structure Promoters where
  store : ControlTables
  promotions : List PromotionRecord
  callers : ℕ → Promoter
  landed : List (ℕ × String)
  merged : Bool

inductive PromotionStep
  | intend (caller : ℕ) (a : PromoteArgs) (opening : Option DbError) (fault : Option DbFault)
      (hex clock : String)
  | claim (caller : ℕ) (opening : Option DbError) (o : Oracle DbError)
  | push (caller : ℕ) (baseSha : String) (result : Except String String)
  | receipt (caller : ℕ) (fault : Option DbFault) (clock : String)
  | close (caller : ℕ) (scene : CloseScene)
  | die (caller : ℕ)
  | elsewhere (db : Tables)

def PromoteError.message : PromoteError → String
  | refused message => message
  | raised message  => message

namespace Promoters

def start (store : ControlTables) (promotions : List PromotionRecord) : Promoters where
  store := store
  promotions := promotions
  callers := fun _ => .idle
  landed := []
  merged := false

def goto (caller : ℕ) (promoter : Promoter) (s : Promoters) : Promoters :=
  { s with callers := Function.update s.callers caller promoter }

section Step

variable (host : Host) (p : Promotion)

/-- One step of a call, the end of a call that dies, or other writers of the runs; a step that is
not the call's next is none. -/
def step (s : Promoters) : PromotionStep → Promoters
  | .intend caller a opening fault hex clock =>
    match s.callers caller with
    | .idle =>
      match journalIntent host p a opening fault hex clock s.store with
      | (t, .error _)    => { s with store := t }
      | (t, .ok command) =>
        -- a promotion that completed is not repeated
        if command.state = .completed then { s with store := t }
        else goto caller (.intended a command) { s with store := t }
    | _     => s
  | .claim caller opening o =>
    match s.callers caller with
    | .intended a command =>
      match claimRun host opening o p.runId p.candidate a.base s.store with
      | .error e     => goto caller (.refusing a command e.message) s
      | .ok (t, _)   => goto caller (.claimed a command) { s with store := t }
    | _                   => s
  | .push caller baseSha result =>
    match s.callers caller with
    | .claimed a command =>
      match result with
      | .error e      => goto caller (.failing a command e) s
      | .ok squashSha => goto caller (.landed a command baseSha squashSha)
          { s with landed := s.landed ++ [(caller, command.commandId)] }
    | _                  => s
  | .receipt caller fault clock =>
    match s.callers caller with
    | .refusing a command refusal =>
      let receipt := [("base", .str a.base), ("candidate_sha", .str p.candidate),
        ("refusal", .str refusal)]
      goto caller .idle
        { s with store := journalReceipt host command .refused receipt fault clock s.store }
    | .failing a command error =>
      let receipt := [("error", .str error), ("base", .str a.base),
        ("candidate_sha", .str p.candidate)]
      goto caller .idle
        { s with store := journalReceipt host command .failed receipt fault clock s.store }
    | .landed a command baseSha squashSha =>
      let receipt := [("base", .str a.base), ("base_sha", .str baseSha),
        ("squash_sha", .str squashSha), ("candidate_sha", .str p.candidate),
        ("subject", .str (promotionPrefix ++ " " ++ p.spec))]
      goto caller (.closing a baseSha squashSha)
        { s with store := journalReceipt host command .completed receipt fault clock s.store }
    | _ => s
  | .close caller scene =>
    match s.callers caller with
    | .closing a baseSha squashSha =>
      match closeRow p a baseSha squashSha scene s.store s.promotions with
      | none                 => goto caller .idle s
      | some (t, promotions) =>
        goto caller .idle { s with store := t, promotions := promotions, merged := true }
    | _ => s
  | .die caller => goto caller .idle s
  | .elsewhere db => { s with store := { s.store with db := db } }

/-! ### What is asked of a run -/

def Promoting (s : Promoters) : Prop :=
  ∃ run, s.store.db.getRun p.runId = some run ∧ run.state = .promoting

def Completed (id : String) (s : Promoters) : Prop :=
  ∃ row ∈ s.store.journal.rows, row.commandId = id ∧ row.state = .completed

/-- After the step at most one push has landed; a push is made while the row is promoting and no
other call holds it; the journal row of a push that landed is completed once its call has recorded
the outcome; and a row that a call closed as merged has its row of `promotions`. -/
structure Single (s : Promoters) (i : PromotionStep) : Prop where
  once : (s.step host p i).landed.length ≤ 1
  exclusive : ∀ caller baseSha result, i = .push caller baseSha result →
    (s.callers caller).Pushing → s.Promoting p ∧ ∀ other, other ≠ caller → ¬ (s.callers other).Holds
  received : ∀ caller id, (caller, id) ∈ (s.step host p i).landed →
    (((s.step host p i).callers caller).Landed ∧
        ((s.step host p i).callers caller).command?.map CommandRecord.commandId = some id) ∨
      (s.step host p i).Completed id
  closed : (s.step host p i).merged = true →
    ∃ r ∈ (s.step host p i).promotions, r.runId = p.runId ∧ r.candidateSha = strip p.candidate

/-- The row can be claimed: it is promotable, or it is promoting and a promotion of its candidate is
recorded as failed. -/
def Claimable (s : Promoters) : Prop :=
  ∃ run, s.store.db.getRun p.runId = some run ∧
    (strip run.candidateSha = "" ∨ startsWith p.candidate (strip run.candidateSha) = true) ∧
    (run.state = .promotable ∨
      run.state = .promoting ∧ s.store.journal.FailedPrior p.runId (strip run.candidateSha))

/-- A row is claimed only while no other call holds it and no push has landed; a refusal or a failure
is recorded only in a row that no other call is still to record its outcome in; a landed push is
recorded; and other writers leave the row promoting while a call is about to push. -/
def Orderly (s : Promoters) : PromotionStep → Prop
  | .claim caller opening _      => (s.callers caller).Claiming → opening = none →
      s.Claimable p → s.landed = [] ∧ ∀ other, other ≠ caller → ¬ (s.callers other).Holds
  | .receipt caller fault _      =>
      ((s.callers caller).Landed → ∀ e, fault ≠ some (.before e)) ∧
      (¬ (s.callers caller).Landed → ∀ other, other ≠ caller →
        ∀ mine ∈ (s.callers caller).command?, ∀ theirs ∈ (s.callers other).command?,
          theirs.commandId ≠ mine.commandId)
  | .die caller                  => ¬ (s.callers caller).Landed
  | .elsewhere db                => ∀ caller, (s.callers caller).Pushing →
      ∃ run, db.getRun p.runId = some run ∧ run.state = .promoting
  | _                            => True

end Step

end Promoters

end AgenticDynamics.Control
