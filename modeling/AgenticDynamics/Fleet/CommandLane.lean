import AgenticDynamics.Library.Python
import AgenticDynamics.Library.Words

/-!
# The command lane

Commands are pushed at the left end of a list and claimed from its right end, into a lane that
survives the consumer. A consumer that starts puts back what was claimed and never started, and the
board decides which commands these are.
-/

namespace AgenticDynamics.Fleet

open Python

/-! ### The keys -/

/-- A record of the board as the document that its text holds; none stands for a text that holds
none. -/
abbrev JobRecord := Option Json

/-- The keys of the fleet, each list from its left end. -/
structure FleetStore where
  /-- `fleet:commands`. -/
  commands : List String := []
  /-- `fleet:commands:processing`. -/
  processing : List String := []
  /-- `fleet:jobs`. -/
  jobs : Dict JobRecord := []
  /-- The dead letters of `fleet_jobs`: the command and the reason of each. -/
  dead : List (Json × String) := []

/-- `LPUSH fleet:commands`. -/
def FleetStore.push (raw : String) (s : FleetStore) : FleetStore :=
  { s with commands := raw :: s.commands }

/-- `BLMOVE fleet:commands fleet:commands:processing RIGHT RIGHT`. -/
def claimCommand (s : FleetStore) : Option (String × FleetStore) :=
  s.commands.getLast?.map fun raw =>
    (raw, { s with commands := s.commands.dropLast, processing := s.processing ++ [raw] })

/-- `LREM fleet:commands:processing 1`. -/
def releaseCommand (raw : String) (s : FleetStore) : FleetStore :=
  { s with processing := s.processing.erase raw }

/-- `_REQUEUE_LUA`. -/
def requeueClaimed (raw : String) (s : FleetStore) : FleetStore :=
  { s with processing := s.processing.erase raw, commands := raw :: s.commands }

/-- `record_dead` for the queue `fleet_jobs`. -/
def FleetStore.recordDead (command : Json) (reason : String) (s : FleetStore) : FleetStore :=
  { s with dead := s.dead ++ [(command, reason)] }

/-! ### The board -/

section Board

variable (host : Runtime)

/-- The document that `record_job_status` changes. -/
def JobRecord.fields : Option JobRecord → Except String (Dict Json)
  | none                      => .ok []
  | some none                 => .ok []
  | some (some (.obj fields)) => .ok fields
  | some (some _)             => .error "AttributeError"

/-- The record that `record_job_status` writes over what it has read; the clock reads `ts`. -/
def nextRecord (jobId status : String) (ts : Json) (fields record : Dict Json) : Dict Json :=
  fields.foldl (fun d kv => Dict.set kv.1 kv.2 d)
    (Dict.set "ts" ts (Dict.set "status" (.str status)
      (Dict.setDefault "job_id" (.str jobId) record)))

/-- `HSET fleet:jobs`. -/
def FleetStore.setJob (jobId : String) (record : Dict Json) (s : FleetStore) : FleetStore :=
  { s with jobs := Dict.set jobId (some (.obj record)) s.jobs }

def recordJobStatus (jobId status : String) (ts : Json) (fields : Dict Json) (s : FleetStore) :
    Except String FleetStore := do
  let record ← JobRecord.fields (Dict.get? jobId s.jobs)
  return s.setJob jobId (nextRecord jobId status ts fields record)

/-- `str(record.get("status") or "")`. -/
def statusText (record : Dict Json) : String :=
  (Json.orElse (Dict.get? "status" record) (.str "")).text host

def jobStatus (jobId : String) (s : FleetStore) : Except String String :=
  (JobRecord.fields (Dict.get? jobId s.jobs)).map (statusText host)

/-! ### Recovery -/

/-- The reason that recovery gives for a command that was running. -/
def restartReason : String :=
  "wrapper restarted mid-dispatch; outcome unobservable " ++
    "(the container's own run ledger, if any, is authoritative)"

/-- `str(command.get("job_id") or "")`. -/
def jobIdText (command : Dict Json) : String :=
  (Json.orElse (Dict.get? "job_id" command) (.str "")).text host

/-- What `_recover_processing` reads as the status of a submit. -/
def claimedStatus (command : Dict Json) (s : FleetStore) : Except String String :=
  if jobIdText host command = "" then .ok "" else jobStatus host (jobIdText host command) s

/-- `command.get("action") == "submit"`. -/
def isSubmit (command : Dict Json) : Bool :=
  match Dict.get? "action" command with
  | some (.str action) => action = "submit"
  | _                  => false

/-- The body of the loop of `_recover_processing`; the clock reads `ts`. -/
def recoverEntry (ts : Json) (raw : String) (s : FleetStore) : Except String FleetStore :=
  match host.loads raw with
  | .error (cls, _) => if cls = "JSONDecodeError" then .ok (releaseCommand raw s) else .error cls
  | .ok (.obj command) =>
    if ¬ isSubmit command then .ok (requeueClaimed raw s)
    else do
      let status ← claimedStatus host command s
      if status = "running" then
        let recorded ← recordJobStatus (jobIdText host command) "failed" ts
          [("error", .str restartReason)] s
        return releaseCommand raw (recorded.recordDead (.obj command) restartReason)
      else if status = "completed" ∨ status = "failed" then return releaseCommand raw s
      else return requeueClaimed raw s
  | .ok _ => .ok (releaseCommand raw s)

/-- `_recover_processing`: from the newest claim to the oldest. -/
def recoverProcessing (ts : Json) (s : FleetStore) : Except String FleetStore :=
  s.processing.reverse.foldlM (fun s raw => recoverEntry host ts raw s) s

/-! ### What goes back -/

/-- The claim was never started: recovery puts it back. -/
def neverStarted (s : FleetStore) (raw : String) : Bool :=
  match host.loads raw with
  | .ok (.obj command) =>
    if ¬ isSubmit command then true
    else
      match claimedStatus host command s with
      | .ok status => status ∉ ["running", "completed", "failed"]
      | .error _   => false
  | _ => false

/-- The commands in the order in which a consumer claims them. -/
def claimOrder (s : FleetStore) : List String := s.commands.reverse

variable {host} {ts : Json} {s t : FleetStore} {raw : String}

lemma statusText_nextRecord {jobId status : String} {fields record : Dict Json}
    (hfields : ∀ kv ∈ fields, kv.1 ≠ "status") (hstatus : status ≠ "") :
    statusText host (nextRecord jobId status ts fields record) = status := by
  have hget : Dict.get? "status" (nextRecord jobId status ts fields record) =
      some (.str status) := by
    have hbase : Dict.get? "status" (Dict.set "ts" ts (Dict.set "status" (.str status)
        (Dict.setDefault "job_id" (.str jobId) record))) = some (.str status) := by
      simp [Dict.get?_set]
    rw [nextRecord]
    generalize Dict.set "ts" ts (Dict.set "status" (.str status)
      (Dict.setDefault "job_id" (.str jobId) record)) = base at hbase ⊢
    induction fields generalizing base with
    | nil => exact hbase
    | cons kv fields ih =>
      refine ih (fun kv' hkv' => hfields kv' (List.mem_cons_of_mem kv hkv')) _ ?_
      rw [Dict.get?_set, if_neg (hfields kv List.mem_cons_self)]
      exact hbase
  have htruthy : (Json.str status).truthy = true := by simpa [Json.truthy] using hstatus
  rw [statusText, hget, Json.orElse, if_pos htruthy, Json.text]

lemma neverStarted_recordFailed {jobId : String} {fields : Dict Json}
    (hrunning : jobStatus host jobId s = .ok "running") (hfields : ∀ kv ∈ fields, kv.1 ≠ "status")
    (h : recordJobStatus jobId "failed" ts fields s = .ok t) (raw : String) :
    neverStarted host t raw = neverStarted host s raw := by
  simp only [recordJobStatus, bind_eq_ok, pure, Except.pure, Except.ok.injEq] at h
  obtain ⟨record, hrecord, rfl⟩ := h
  have hstatus (other : String) : jobStatus host other
      (s.setJob jobId (nextRecord jobId "failed" ts fields record)) =
        if other = jobId then .ok "failed" else jobStatus host other s := by
    rw [jobStatus, FleetStore.setJob, Dict.get?_set]
    by_cases hsame : other = jobId
    · rw [if_pos hsame.symm, if_pos hsame, JobRecord.fields, Except.map,
        statusText_nextRecord hfields (by decide)]
    · rw [if_neg (Ne.symm hsame), if_neg hsame]
      rfl
  rw [neverStarted, neverStarted]
  cases host.loads raw with
  | error e => rfl
  | ok value =>
    cases value with
    | obj command =>
      by_cases hsubmit : ¬ isSubmit command
      · simp only [if_pos hsubmit]
      · simp only [if_neg hsubmit, claimedStatus, hstatus]
        by_cases hblank : jobIdText host command = ""
        · simp only [if_pos hblank]
        · by_cases hsame : jobIdText host command = jobId
          · rw [hsame] at hblank ⊢
            simp only [if_neg hblank, hrunning]
            rfl
          · simp only [if_neg hblank, if_neg hsame]
    | _ => rfl

lemma neverStarted_congr (h : t.jobs = s.jobs) (raw : String) :
    neverStarted host t raw = neverStarted host s raw := by
  simp only [neverStarted, claimedStatus, jobStatus, h]

lemma recordJobStatus_spec {jobId status : String} {fields : Dict Json}
    (h : recordJobStatus jobId status ts fields s = .ok t) :
    ∃ record, JobRecord.fields (Dict.get? jobId s.jobs) = .ok record ∧
      t = s.setJob jobId (nextRecord jobId status ts fields record) := by
  simp only [recordJobStatus, bind_eq_ok, pure, Except.pure, Except.ok.injEq] at h
  obtain ⟨record, hrecord, rfl⟩ := h
  exact ⟨record, hrecord, rfl⟩

/-- The entry was taken back if it was never started, and dropped otherwise. -/
structure Recovered (host : Runtime) (raw : String) (s t : FleetStore) : Prop where
  commands : t.commands = [raw].filter (neverStarted host s) ++ s.commands
  processing : t.processing = s.processing.erase raw
  started : ∀ other, neverStarted host t other = neverStarted host s other

lemma recoverEntry_spec (h : recoverEntry host ts raw s = .ok t) : Recovered host raw s t := by
  have hback (hnever : neverStarted host s raw = true) (ht : t = requeueClaimed raw s) :
      Recovered host raw s t := by
    subst ht
    exact ⟨by rw [List.filter_cons_of_pos hnever]; rfl, rfl, fun _ => rfl⟩
  have hgone (hnever : neverStarted host s raw = false) (ht : t = releaseCommand raw s) :
      Recovered host raw s t := by
    subst ht
    exact ⟨by rw [List.filter_cons_of_neg (by simp [hnever])]; rfl, rfl, fun _ => rfl⟩
  rw [recoverEntry] at h
  cases hloads : host.loads raw with
  | error e =>
    simp only [hloads] at h
    split_ifs at h
    cases h
    exact hgone (by simp only [neverStarted, hloads]) rfl
  | ok value =>
    cases value with
    | obj command =>
      simp only [hloads] at h
      by_cases hsubmit : ¬ isSubmit command
      · rw [if_pos hsubmit] at h
        cases h
        refine hback ?_ rfl
        simp only [neverStarted, hloads, if_pos hsubmit]
      · rw [if_neg hsubmit] at h
        obtain ⟨status, hstatus, h⟩ := bind_eq_ok.mp h
        have hnever : neverStarted host s raw =
            decide (status ∉ ["running", "completed", "failed"]) := by
          simp only [neverStarted, hloads, if_neg hsubmit, hstatus]
        by_cases hrunning : status = "running"
        · subst hrunning
          rw [if_pos rfl] at h
          obtain ⟨recorded, hrecorded, h⟩ := bind_eq_ok.mp h
          cases h
          have hjob : jobStatus host (jobIdText host command) s = .ok "running" := by
            rw [claimedStatus] at hstatus
            split_ifs at hstatus with hblank
            · exact absurd (Except.ok.inj hstatus) (by decide)
            · exact hstatus
          have hkept := neverStarted_recordFailed hjob (by simp) hrecorded
          obtain ⟨record, -, rfl⟩ := recordJobStatus_spec hrecorded
          refine ⟨?_, rfl, fun other => (neverStarted_congr rfl other).trans (hkept other)⟩
          rw [List.filter_cons_of_neg (by simp [hnever])]
          rfl
        · rw [if_neg hrunning] at h
          by_cases hended : status = "completed" ∨ status = "failed"
          · rw [if_pos hended] at h
            cases h
            refine hgone ?_ rfl
            rw [hnever, decide_eq_false_iff_not, not_not]
            rcases hended with rfl | rfl <;> simp
          · rw [if_neg hended] at h
            cases h
            refine hback ?_ rfl
            rw [hnever]
            simpa [hrunning] using hended
    | _ =>
      simp only [hloads] at h
      cases h
      exact hgone (by simp only [neverStarted, hloads]) rfl

lemma recover_claims {claims : List String}
    (h : claims.reverse.foldlM (fun s raw => recoverEntry host ts raw s) s = .ok t) :
    t.commands = claims.filter (neverStarted host s) ++ s.commands ∧
      t.processing = claims.reverse.foldl (fun l raw => l.erase raw) s.processing ∧
      ∀ other, neverStarted host t other = neverStarted host s other := by
  induction claims generalizing t with
  | nil =>
    cases h
    exact ⟨rfl, rfl, fun _ => rfl⟩
  | cons raw claims ih =>
    rw [List.reverse_cons, List.foldlM_append] at h
    obtain ⟨between, hclaims, h⟩ := bind_eq_ok.mp h
    obtain ⟨hcommands, hprocessing, hkept⟩ := ih hclaims
    obtain ⟨hcommands', hprocessing', hkept'⟩ := recoverEntry_spec (by simpa using h)
    refine ⟨?_, ?_, fun other => (hkept' other).trans (hkept other)⟩
    · have hsame : [raw].filter (neverStarted host between) = [raw].filter (neverStarted host s) :=
        List.filter_congr fun other _ => hkept other
      rw [hcommands', hcommands, hsame, ← List.append_assoc, ← List.filter_append]
      rfl
    · rw [hprocessing', hprocessing, List.reverse_cons, List.foldl_append]
      rfl

/-- The claims that recovery puts back, in the order in which they were claimed. -/
def requeued (host : Runtime) (s : FleetStore) : List String :=
  s.processing.filter (neverStarted host s)

/-- The next consumer claims what was put back in the order in which it was claimed at first, and
before every command that was waiting. -/
def OrderKept (host : Runtime) (s t : FleetStore) : Prop :=
  claimOrder t = requeued host s ++ claimOrder s

/-- Recovery puts claims back behind the waiting commands, the newest one first. The order is kept
only where this makes no difference to the texts: when nothing is put back, or what is put back is
made of two palindromes and the waiting commands repeat it. -/
theorem recovery_order_kept_iff (h : recoverProcessing host ts s = .ok t) :
    claimOrder t = claimOrder s ++ (requeued host s).reverse ∧
      (OrderKept host s t ↔ requeued host s = [] ∨
        ∃ p x k, p.reverse = p ∧ x.reverse = x ∧ requeued host s = p ++ x ∧
          claimOrder s = (List.replicate k (requeued host s)).flatten ++ p) := by
  have horder : claimOrder t = claimOrder s ++ (requeued host s).reverse := by
    rw [claimOrder, (recover_claims h).1, List.reverse_append]
    rfl
  refine ⟨horder, ?_⟩
  rw [OrderKept, horder, eq_comm]
  exact Words.append_eq_append_reverse_iff

def restartHost : Runtime where
  loads raw := .ok (.obj [("action", .str "restart"), ("service", .str raw)])
  repr _ := ""
  upper s := s
  lower s := s

/-- One claim, and nothing that waits. -/
theorem recovery_order_kept_alone :
    OrderKept restartHost { processing := ["web"] } { commands := ["web"] } := by
  have hrecovered : recoverProcessing restartHost .null { processing := ["web"] } =
      .ok { commands := ["web"] } := rfl
  refine (recovery_order_kept_iff hrecovered).2.mpr (.inr ⟨[], ["web"], 0, rfl, rfl, ?_, rfl⟩)
  rfl

/-- Two claims, and a command that waits. -/
theorem recovery_reverses_claims : ∃ host s t, recoverProcessing host .null s = .ok t ∧
    claimOrder s = ["batch"] ∧ requeued host s = ["web", "worker"] ∧
      claimOrder t = ["batch", "worker", "web"] ∧ ¬ OrderKept host s t := by
  refine ⟨restartHost, { commands := ["batch"], processing := ["web", "worker"] },
    { commands := ["web", "worker", "batch"] }, rfl, rfl, rfl, rfl, fun hkept => ?_⟩
  have horder : ["batch", "worker", "web"] = ["web", "worker", "batch"] := hkept
  exact absurd horder (by decide)

end Board

end AgenticDynamics.Fleet
