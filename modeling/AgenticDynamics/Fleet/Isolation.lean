import AgenticDynamics.Fleet.BrokerLaunch

/-!
# The isolation of a launched cell

What docker mounts for a request that the broker accepted, and whether the cell may spend.
-/

namespace AgenticDynamics.Fleet.Broker

open Python

section Accepted

variable {env : Surroundings} {hostConfig cfg : PathConfig} {armed : Bool} {now : PyFloat}
  {request : Dict Json} {argv : List String}

/-! ### What was checked -/

/-- The checks of the typed contract that later steps rely on. -/
structure Typed (env : Surroundings) (cfg : PathConfig) (request : Dict Json) : Prop where
  complete : missingErrors env request = []
  image : imageErrors env request = []
  profile : profileErrors env request = []
  stateNamespace : namespaceErrors env request = []
  clone : cloneErrors env cfg request = []
  command : commandErrors env request = []

lemma typed_of_valid (h : validateLaunchRequest env cfg (.obj request) = .ok []) :
    Typed env cfg request := by
  rw [validateLaunchRequest] at h
  by_cases hunknown : unknownFields request = []
  · cases hview : viewErrors env request with
    | error e => simp [hunknown, hview, bind, Except.bind] at h
    | ok view =>
      simp [hunknown, hview, bind, Except.bind, pure, Except.pure] at h
      obtain ⟨hcomplete, -, himage, -, hprofile, hns, hclone, hcommand, -⟩ := h
      exact ⟨hcomplete, himage, hprofile, hns, hclone, hcommand⟩
  · simp [hunknown, pure, Except.pure] at h

lemma namespace_of_typed (h : Typed env cfg request) :
    ∃ ns, field "state_namespace" request = .str ns ∧ sanitizeNamespace ns = ns := by
  have hpresent : absent (field "state_namespace" request) = false := by
    have hcomplete := List.filter_eq_nil_iff.mp (List.map_eq_nil_iff.mp h.complete)
    simpa using hcomplete "state_namespace" (by simp [requiredFields])
  have hns := h.stateNamespace
  rw [namespaceErrors] at hns
  cases hfield : field "state_namespace" request with
  | str ns =>
    refine ⟨ns, rfl, ?_⟩
    rw [hfield] at hns hpresent
    by_contra hchanged
    simp [hpresent, validStateNamespace, hchanged] at hns
  | _ =>
    rw [hfield] at hns hpresent
    simp [hpresent, validStateNamespace] at hns

lemma lease_of_valid {phaseScopes : Dict String}
    (h : validateSpawn env cfg phaseScopes armed now request = .ok []) :
    leaseErrors env armed now (field "verifier" request).truthy request = .ok [] := by
  rw [validateSpawn] at h
  cases hscope : Dict.get? (textField env "scope" request) scopeConfigs with
  | none => simp [hscope, pure, Except.pure] at h
  | some sc =>
    simp only [hscope] at h
    by_cases hphase : Dict.get? (textField env "phase" request) phaseScopes ≠
        some (textField env "scope" request)
    · rw [if_pos hphase] at h
      cases h
    · rw [if_neg hphase] at h
      simp only [bind_eq_ok, pure, Except.pure, Except.ok.injEq, List.append_eq_nil_iff] at h
      obtain ⟨mounts, -, items, -, lease, hlease, ⟨-, -⟩, hnone⟩ := h
      rw [hlease, hnone]

lemma launch_eq_ok (h : launch env hostConfig armed now (.obj request) = .ok argv) :
    ∃ cfg mounts, validationConfig hostConfig request = .ok cfg ∧ Typed env cfg request ∧
      leaseErrors env armed now (field "verifier" request).truthy request = .ok [] ∧
      mountsForProfile hostConfig (textField env "mount_profile" request)
        (textField env "state_namespace" request) (clonePath env request) = some mounts ∧
      buildLaunchArgv env request mounts = .ok argv := by
  rw [launch] at h
  obtain ⟨cfg, hcfg, h⟩ := bind_eq_ok.mp h
  obtain ⟨errors, herrors, h⟩ := bind_eq_ok.mp h
  rw [mapError_eq_ok] at hcfg herrors
  by_cases hnone : errors = []
  · rw [if_neg (not_not.mpr hnone)] at h
    obtain ⟨scopeErrors, hspawn, h⟩ := bind_eq_ok.mp h
    rw [mapError_eq_ok] at hspawn
    by_cases hscope : scopeErrors = []
    · rw [if_neg (not_not.mpr hscope)] at h
      cases hmounts : mountsForProfile hostConfig (textField env "mount_profile" request)
          (textField env "state_namespace" request) (clonePath env request) with
      | none => simp [hmounts, throw, throwThe, MonadExceptOf.throw] at h
      | some mounts =>
        simp only [hmounts] at h
        exact ⟨cfg, mounts, hcfg, typed_of_valid (hnone ▸ herrors),
          lease_of_valid (hscope ▸ hspawn), rfl, mapError_eq_ok.mp h⟩
    · rw [if_pos hscope] at h
      cases h
  · rw [if_pos hnone] at h
    cases h

lemma profile_of_typed (h : Typed env cfg request) :
    ∃ name p, field "mount_profile" request = .str name ∧ Dict.get? name mountProfiles = some p ∧
      p.verifier = isVerifierRequest request := by
  have hprofile := h.profile
  rw [profileErrors, profileOf] at hprofile
  cases hfield : field "mount_profile" request with
  | str name =>
    simp only [hfield] at hprofile
    cases hget : Dict.get? name mountProfiles with
    | none => simp [hget] at hprofile
    | some p =>
      refine ⟨name, p, rfl, hget, ?_⟩
      simp only [hget, List.append_eq_nil_iff] at hprofile
      obtain ⟨⟨hmarked, hunmarked⟩, -⟩ := hprofile
      cases hmarker : isVerifierRequest request <;> cases hverifier : p.verifier <;>
        simp_all
  | _ => simp [hfield] at hprofile

/-! ### Leases -/

/-- A lease block with all its fields, well formed and not expired. -/
structure LiveLease (env : Surroundings) (now : PyFloat) (request : Dict Json) : Prop where
  complete : ∀ name ∈ leaseRequestFields, carries request name = true
  wellFormed : validateLeaseFields env true request = .ok []
  live : ∃ value t, Dict.get? "expires_at" request = some value ∧ value.toFloat env.host = .ok t ∧
    PyFloat.le t now = false

lemma lease_block {required : Bool} (h : validateLeaseFields env required request = .ok []) :
    (required = false ∧ ∀ name ∈ leaseRequestFields, carries request name = false) ∨
      (∀ name ∈ leaseRequestFields, carries request name = true) ∧
        validateLeaseFields env true request = .ok [] := by
  rw [validateLeaseFields] at h
  by_cases hpresent : leaseRequestFields.filter (carries request) = []
  · refine .inl ⟨?_, ?_⟩
    · cases required with
      | false => rfl
      | true => simp [hpresent, pure, Except.pure] at h
    · simpa using List.filter_eq_nil_iff.mp hpresent
  · by_cases hmissing : (leaseRequestFields.filter fun name => ¬ carries request name) = []
    · refine .inr ⟨?_, ?_⟩
      · simpa using List.filter_eq_nil_iff.mp hmissing
      · rw [validateLeaseFields]
        simp only [if_neg hpresent] at h ⊢
        exact h
    · simp only [if_neg hpresent] at h
      rw [if_pos hmissing] at h
      exact absurd (Except.ok.inj h) (List.cons_ne_nil _ _)

lemma liveLease_of_complete {isVerifier : Bool}
    (h : leaseErrors env armed now isVerifier request = .ok [])
    (hcarries : ∃ name ∈ leaseRequestFields, carries request name = true) :
    LiveLease env now request := by
  rw [leaseErrors] at h
  obtain ⟨wrong, hwrong, h⟩ := bind_eq_ok.mp h
  have hnone : wrong = [] := by
    by_contra hsome
    rw [if_pos hsome, pure, Except.instMonad] at h
    exact hsome (List.map_eq_nil_iff.mp (Except.ok.inj h))
  subst hnone
  rcases lease_block hwrong with ⟨-, habsent⟩ | ⟨hcomplete, hwell⟩
  · obtain ⟨name, hname, hcarried⟩ := hcarries
    rw [habsent name hname] at hcarried
    cases hcarried
  · refine ⟨hcomplete, hwell, ?_⟩
    obtain ⟨value, hvalue⟩ := Option.isSome_iff_exists.mp
      (hcomplete "expires_at" (by simp [leaseRequestFields]))
    simp only [ne_eq, not_true_eq_false, if_false, hvalue] at h
    obtain ⟨t, ht, h⟩ := bind_eq_ok.mp h
    refine ⟨value, t, hvalue, ht, ?_⟩
    cases hle : PyFloat.le t now with
    | false => rfl
    | true => simp [hle, pure, Except.pure] at h

lemma carries_of_required (h : leaseErrors env true now false request = .ok []) :
    ∃ name ∈ leaseRequestFields, carries request name = true := by
  rw [leaseErrors] at h
  obtain ⟨wrong, hwrong, h⟩ := bind_eq_ok.mp h
  have hnone : wrong = [] := by
    by_contra hsome
    rw [if_pos hsome, pure, Except.instMonad] at h
    exact hsome (List.map_eq_nil_iff.mp (Except.ok.inj h))
  subst hnone
  rcases lease_block hwrong with ⟨hfalse, -⟩ | ⟨hcomplete, -⟩
  · cases hfalse
  · exact ⟨"expires_at", by simp [leaseRequestFields], hcomplete _ (by simp [leaseRequestFields])⟩

/-- What docker is given is the read-only surface of a verifier. -/
def RunsVerifier (env : Surroundings) (hostConfig : PathConfig) (request : Dict Json)
    (argv : List String) : Prop :=
  buildLaunchArgv env request (verifierMounts hostConfig (clonePath env request)) = .ok argv

lemma verifierMounts_readOnly {clone : Option String} {m : Mount}
    (h : m ∈ verifierMounts cfg clone) : m.mode = "ro" ∧
      (m.source = clone.getD m.source ∧ clone.isSome = true ∨
        m.source ∈ [cfg.worktreesRoot.text, cfg.repoRoot.text, cfg.gitDir.text]) := by
  cases clone with
  | some c =>
    rw [verifierMounts, List.mem_singleton] at h
    subst h
    exact ⟨rfl, .inl ⟨rfl, rfl⟩⟩
  | none =>
    simp only [verifierMounts, List.mem_cons, List.not_mem_nil, or_false] at h
    rcases h with rfl | rfl | rfl | rfl | rfl <;> exact ⟨rfl, .inr (by simp)⟩

lemma length_mounts {mounts mounts' : List Mount}
    (h : buildLaunchArgv env request mounts = .ok argv)
    (h' : buildLaunchArgv env request mounts' = .ok argv) : mounts.length = mounts'.length := by
  simp only [buildLaunchArgv, bind_eq_ok, pure, Except.pure, Except.ok.injEq] at h h'
  obtain ⟨items, hitems, command, hcommand, rfl⟩ := h
  obtain ⟨items', hitems', command', hcommand', hsame⟩ := h'
  rw [hitems, Except.ok.injEq] at hitems'
  rw [hcommand, Except.ok.injEq] at hcommand'
  subst hitems' hcommand'
  have hlength := congrArg List.length hsame
  simp [List.length_flatMap] at hlength
  omega

lemma mounts_of_profile {name ns : String} {clone : Option String} {p : MountProfile}
    {mounts : List Mount} (hp : Dict.get? name mountProfiles = some p)
    (h : mountsForProfile cfg name ns clone = some mounts) :
    mounts = if p.verifier then verifierMounts cfg clone
      else agentMounts cfg name (Python.orElse p.resultsMode "rw") ns clone := by
  rw [mountsForProfile, hp, Option.map_some, Option.some.injEq] at h
  exact h.symm

lemma agent_ne_verifier {name mode ns : String} {clone : Option String} :
    (agentMounts cfg name mode ns clone).length ≠ (verifierMounts cfg clone).length := by
  cases clone <;> simp [agentMounts, verifierMounts, privateMounts, PathConfig.authDirs,
    authDirRelatives]

lemma textField_str {name s : String} (h : field name request = .str s) :
    textField env name request = s := by
  rw [field] at h
  rw [textField]
  cases hget : Dict.get? name request with
  | none => simp [hget] at h
  | some value =>
    rw [hget, Option.getD_some] at h
    rw [Option.getD_some, h, Json.text]

lemma launch_mounts (h : launch env hostConfig armed now (.obj request) = .ok argv) :
    ∃ cfg name ns p, validationConfig hostConfig request = .ok cfg ∧ Typed env cfg request ∧
      leaseErrors env armed now (field "verifier" request).truthy request = .ok [] ∧
      field "mount_profile" request = .str name ∧ field "state_namespace" request = .str ns ∧
      Dict.get? name mountProfiles = some p ∧ p.verifier = isVerifierRequest request ∧
      buildLaunchArgv env request (if p.verifier
        then verifierMounts hostConfig (clonePath env request)
        else agentMounts hostConfig name (Python.orElse p.resultsMode "rw") ns
          (clonePath env request)) = .ok argv := by
  obtain ⟨cfg, mounts, hcfg, htyped, hlease, hmounts, hargv⟩ := launch_eq_ok h
  obtain ⟨name, p, hname, hp, hverifier⟩ := profile_of_typed htyped
  obtain ⟨ns, hns, -⟩ := namespace_of_typed htyped
  rw [textField_str hname, textField_str hns] at hmounts
  rw [mounts_of_profile hp hmounts] at hargv
  exact ⟨cfg, name, ns, p, hcfg, htyped, hlease, hname, hns, hp, hverifier, hargv⟩

lemma runs_agent (h : launch env hostConfig armed now (.obj request) = .ok argv)
    (hmarker : isVerifierRequest request = false) :
    ¬ RunsVerifier env hostConfig request argv := by
  obtain ⟨cfg, name, ns, p, -, -, -, -, -, -, hverifier, hargv⟩ := launch_mounts h
  rw [hverifier, hmarker, if_neg Bool.false_ne_true] at hargv
  exact fun hruns => agent_ne_verifier (length_mounts hargv hruns)

/-- The two checks read the marker with different tests: the typed contract knows a verifier by the
value true, the scope model by any value that is not empty. A request between the two runs an agent
without a lease. -/
theorem lease_exemption_iff {doc : Json} (h : launch env hostConfig true now doc = .ok argv) :
    ∃ request, doc = .obj request ∧
      ((RunsVerifier env hostConfig request argv ∨ LiveLease env now request) ↔
        ((field "verifier" request).truthy = true → isVerifierRequest request = true ∨
          ∃ name ∈ leaseRequestFields, carries request name = true)) := by
  cases doc with
  | obj request =>
    refine ⟨request, rfl, ?_⟩
    obtain ⟨cfg, name, ns, p, -, -, hlease, -, -, -, hverifier, hargv⟩ := launch_mounts h
    constructor
    · rintro (hruns | hlive) hmarked
      · left
        by_contra hagent
        exact runs_agent h (Bool.eq_false_iff.mpr hagent) hruns
      · exact .inr ⟨"expires_at", by simp [leaseRequestFields],
          hlive.complete _ (by simp [leaseRequestFields])⟩
    · intro hcond
      by_cases hcarries : ∃ name ∈ leaseRequestFields, carries request name = true
      · exact .inr (liveLease_of_complete hlease hcarries)
      · left
        have hmarked : (field "verifier" request).truthy = true := by
          by_contra hplain
          rw [Bool.not_eq_true] at hplain
          rw [hplain] at hlease
          exact hcarries (carries_of_required hlease)
        have htrue : isVerifierRequest request = true := (hcond hmarked).resolve_right hcarries
        rw [hverifier, if_pos htrue] at hargv
        exact hargv
  | _ =>
    simp [launch, validateLaunchRequest, pure, Except.pure, bind, Except.bind, Except.mapError,
      throw, throwThe, MonadExceptOf.throw] at h

/-- Built-ins of texts that need no decoder. -/
def plainHost : Runtime where
  loads _ := .error ("JSONDecodeError", "")
  repr _ := ""
  upper s := s
  lower s := s

def plainSurroundings : Surroundings where
  host := plainHost
  resolve path := (split '/' path).filter (· ≠ "")

def plainConfig : PathConfig where
  repoRoot := ⟨["srv", "repo"]⟩
  gitDir := ⟨["srv", "repo", ".git"]⟩
  worktreesRoot := ⟨["srv", "trees"]⟩
  runsRoot := ⟨["srv", "runs"]⟩
  resultsDir := ⟨["srv", "results"]⟩
  stateRoot := ⟨["srv", "state"]⟩
  authHome := ⟨["home"]⟩

/-- A request of an agent without a lease. -/
def agentRequest (more : Dict Json) : Dict Json :=
  [("image_digest", .str "fleet/base"), ("network", .str "fleet-net"),
    ("mount_profile", .str "implementation_rw"), ("state_namespace", .str "r1"),
    ("command", .arr [.str "python3"]), ("scope", .str "implementation")] ++ more

def leaseBlock : Dict Json :=
  [("reserved_cost_usd", .int 1), ("hard_cap_usd", .int 2), ("budget_lease_id", .str "b1"),
    ("concurrency_lease_id", .str ""), ("expires_at", .int 20)]

lemma ok_of_isSome {ε α : Type} {x : Except ε α} (h : x.toOption.isSome = true) :
    ∃ a, x = .ok a := by
  cases x with
  | error e => cases h
  | ok a => exact ⟨a, rfl⟩

theorem lease_exemption_leased : ∃ argv, launch plainSurroundings plainConfig true (.finite 10)
    (.obj (agentRequest leaseBlock)) = .ok argv ∧
      (RunsVerifier plainSurroundings plainConfig (agentRequest leaseBlock) argv ∨
        LiveLease plainSurroundings (.finite 10) (agentRequest leaseBlock)) := by
  obtain ⟨argv, h⟩ := ok_of_isSome (x := launch plainSurroundings plainConfig true (.finite 10)
    (.obj (agentRequest leaseBlock))) (by decide +kernel)
  obtain ⟨request, hdoc, hiff⟩ := lease_exemption_iff h
  cases hdoc
  exact ⟨argv, h, hiff.mpr fun _ => .inr ⟨"expires_at", by simp [leaseRequestFields], rfl⟩⟩

/-- An agent that calls itself a verifier by the text "yes". -/
theorem marked_agent_unleased : ∃ argv, launch plainSurroundings plainConfig true (.finite 10)
    (.obj (agentRequest [("verifier", .str "yes")])) = .ok argv ∧
      ¬ RunsVerifier plainSurroundings plainConfig (agentRequest [("verifier", .str "yes")]) argv ∧
      ¬ LiveLease plainSurroundings (.finite 10) (agentRequest [("verifier", .str "yes")]) := by
  obtain ⟨argv, h⟩ := ok_of_isSome (x := launch plainSurroundings plainConfig true (.finite 10)
    (.obj (agentRequest [("verifier", .str "yes")]))) (by decide +kernel)
  refine ⟨argv, h, runs_agent h rfl, fun hlive => ?_⟩
  exact absurd (hlive.complete "expires_at" (by simp [leaseRequestFields])) (by decide)

end Accepted

end AgenticDynamics.Fleet.Broker
