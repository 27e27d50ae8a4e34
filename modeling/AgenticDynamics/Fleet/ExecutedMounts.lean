import AgenticDynamics.Fleet.Isolation

/-!
# The mounts that docker executes

The broker joins the paths of a mount with colons, and docker splits them again. What it reads back
is compared with the expansion of the profile that was checked.
-/

namespace AgenticDynamics.Fleet.Broker

open Python

section Executed

variable {env : Surroundings} {hostConfig cfg : PathConfig} {armed : Bool} {now : PyFloat}
  {request : Dict Json} {argv : List String}

/-! ### What docker reads -/

/-- The run clone that was checked; an empty one is as good as none. -/
def validatedClone (request : Dict Json) : Option String :=
  match field "run_clone" request with
  | .str clone => if clone = "" then none else some clone
  | _          => none

/-- The expansion of the profile for the clone and the namespace that were checked. -/
def validatedMounts (env : Surroundings) (hostConfig : PathConfig) (request : Dict Json) :
    Option (List Mount) :=
  mountsForProfile hostConfig (textField env "mount_profile" request)
    (textField env "state_namespace" request) (validatedClone request)

def PathConfig.roots (cfg : PathConfig) : List AbsPath :=
  [cfg.repoRoot, cfg.gitDir, cfg.worktreesRoot, cfg.runsRoot, cfg.resultsDir, cfg.stateRoot,
    cfg.authHome]

/-- A path lies under a configured root, as it is written or as it resolves. -/
def UnderRoots (env : Surroundings) (cfg : PathConfig) (source : String) : Prop :=
  ∃ root ∈ cfg.roots, (∃ rel : List String, ".." ∉ rel ∧ source = (root.join rel).text) ∨
    env.resolve root.text <+: env.resolve source

/-- Docker mounts what was checked, and nothing from outside the configured roots. -/
structure Isolated (env : Surroundings) (hostConfig : PathConfig) (request : Dict Json)
    (argv : List String) : Prop where
  exact : readMounts argv = validatedMounts env hostConfig request
  rooted : ∀ mounts, readMounts argv = some mounts →
    ∀ m ∈ mounts, UnderRoots env hostConfig m.source

/-- Whatever docker mounts writable is writable in the expansion that was checked. -/
def NoUpgrade (env : Surroundings) (hostConfig : PathConfig) (request : Dict Json)
    (argv : List String) : Prop :=
  ∀ mounts, readMounts argv = some mounts → ∀ m ∈ mounts, m.mode ≠ "ro" →
    ∃ expanded, validatedMounts env hostConfig request = some expanded ∧ m ∈ expanded

/-- The paths that an expansion writes into the arguments of docker. -/
def mountedPaths (cfg : PathConfig) (isVerifier : Bool) (ns : String) :
    Option String → List String
  | some clone =>
    if isVerifier then [clone]
    else [cfg.resultsDir.text, clone, cfg.authHome.text, cfg.stateRoot.text, ns]
  | none       =>
    if isVerifier then [cfg.worktreesRoot.text, cfg.repoRoot.text, cfg.gitDir.text]
    else [cfg.worktreesRoot.text, cfg.resultsDir.text, cfg.repoRoot.text, cfg.gitDir.text,
      cfg.authHome.text, cfg.stateRoot.text, ns]

/-- The clone is not the empty text, and no path holds the separator of docker. -/
def Separable (env : Surroundings) (cfg : PathConfig) (request : Dict Json) : Prop :=
  field "run_clone" request ≠ .str "" ∧
    ∀ path ∈ mountedPaths cfg (isVerifierRequest request) (textField env "state_namespace" request)
      (validatedClone request), ':' ∉ path.toList

def Mount.Readable (m : Mount) : Prop :=
  m.source ≠ "" ∧ m.mode ∈ ["ro", "rw"] ∧ ':' ∉ m.source.toList ∧ ':' ∉ m.target.toList

instance (m : Mount) : Decidable m.Readable := by unfold Mount.Readable; infer_instance

lemma splitOn_single_iff {l : List Char} : (∃ w, l.splitOn ':' = [w]) ↔ ':' ∉ l := by
  constructor
  · rintro ⟨w, hw⟩ hmem
    obtain ⟨xs, ys, rfl⟩ := List.append_of_mem hmem
    rw [List.splitOn_append_cons_self] at hw
    have hlength := congrArg List.length hw
    have hx := List.length_pos_of_ne_nil (List.splitOn_ne_nil ':' xs)
    have hy := List.length_pos_of_ne_nil (List.splitOn_ne_nil ':' ys)
    simp only [List.length_append, List.length_singleton] at hlength
    omega
  · exact fun h => ⟨l, List.splitOn_eq_singleton h⟩

lemma readMount_spec (m : Mount) (hmode : m.mode ∈ ["ro", "rw"]) :
    readMount m.spec = if m.Readable then some m else none := by
  have hmode' : m.mode.toList.splitOn ':' = [m.mode.toList] := by
    refine List.splitOn_eq_singleton ?_
    simp only [List.mem_cons, List.not_mem_nil, or_false] at hmode
    rcases hmode with h | h <;> rw [h] <;> decide
  have hsplit : split ':' m.spec = ((m.source.toList.splitOn ':' ++ m.target.toList.splitOn ':') ++
      [m.mode.toList]).map String.ofList := by
    have hlist : m.spec.toList =
        m.source.toList ++ ':' :: (m.target.toList ++ ':' :: m.mode.toList) := by
      simp [Mount.spec, String.toList_append]
    rw [split, hlist, List.splitOn_append_cons_self, List.splitOn_append_cons_self, hmode',
      List.append_assoc]
  rw [readMount, hsplit]
  by_cases hplain : ':' ∉ m.source.toList ∧ ':' ∉ m.target.toList
  · obtain ⟨hsource, htarget⟩ := hplain
    rw [List.splitOn_eq_singleton hsource, List.splitOn_eq_singleton htarget]
    by_cases hempty : m.source = "" <;>
      simp [Mount.Readable, hsource, htarget, hempty, String.ofList_toList, hmode]
  · rw [if_neg fun hread => hplain hread.2.2]
    have hcount (l : List Char) (hl : (l.splitOn ':').length = 1) : ':' ∉ l :=
      splitOn_single_iff.mp (List.length_eq_one_iff.mp hl)
    have hx := List.length_pos_of_ne_nil (List.splitOn_ne_nil ':' m.source.toList)
    have hy := List.length_pos_of_ne_nil (List.splitOn_ne_nil ':' m.target.toList)
    split
    · rename_i source target mode hthree
      have hlength := congrArg List.length hthree
      simp only [List.length_map, List.length_append, List.length_cons, List.length_nil] at hlength
      exact absurd ⟨hcount _ (by omega), hcount _ (by omega)⟩ hplain
    · rfl

lemma readOptions_mounts {mounts : List Mount} {rest : List String}
    (hmode : ∀ m ∈ mounts, m.mode ∈ ["ro", "rw"]) (hrest : readOptions rest = some []) :
    readOptions ((mounts.flatMap fun m => ["-v", m.spec]) ++ rest) =
      if ∀ m ∈ mounts, m.Readable then some mounts else none := by
  induction mounts with
  | nil => simpa using hrest
  | cons m mounts ih =>
    have htail := ih fun m' hm' => hmode m' (List.mem_cons_of_mem m hm')
    rw [List.flatMap_cons, List.append_assoc, List.cons_append, List.cons_append, List.nil_append,
      readOptions, readMount_spec m (hmode m List.mem_cons_self), htail]
    by_cases hm : m.Readable
    · by_cases hall : ∀ m' ∈ mounts, m'.Readable
      · rw [if_pos hm, if_pos hall, if_pos (List.forall_mem_cons.mpr ⟨hm, hall⟩)]
        rfl
      · rw [if_pos hm, if_neg hall, if_neg fun h => hall (List.forall_mem_cons.mp h).2]
        rfl
    · rw [if_neg hm, if_neg fun h => hm (List.forall_mem_cons.mp h).1]
      rfl

lemma readOptions_env (items : Dict Json) {rest : List String} :
    readOptions ((items.flatMap fun kv => ["-e", kv.1 ++ "=" ++ kv.2.text env.host]) ++ rest) =
      readOptions rest := by
  induction items with
  | nil => rfl
  | cons kv items ih =>
    rw [List.flatMap_cons, List.append_assoc, List.cons_append, List.cons_append, List.nil_append,
      readOptions]
    exact ih

lemma readOptions_image {image : String} (h : validImageDigest (.str image) = true)
    (command : List String) : readOptions (image :: command) = some [] := by
  unfold readOptions
  split <;> first | rfl | (rename_i heq; cases heq; exact absurd h (by decide +kernel))

lemma image_of_typed (h : Typed env cfg request) :
    ∃ image, field "image_digest" request = .str image ∧ validImageDigest (.str image) = true := by
  have hpresent : absent (field "image_digest" request) = false := by
    have hcomplete := List.filter_eq_nil_iff.mp (List.map_eq_nil_iff.mp h.complete)
    simpa using hcomplete "image_digest" (by simp [requiredFields])
  have hvalid : validImageDigest (field "image_digest" request) = true := by
    by_contra hbad
    have himage := h.image
    simp [imageErrors, hpresent, hbad] at himage
  cases hfield : field "image_digest" request with
  | str image => exact ⟨image, rfl, hfield ▸ hvalid⟩
  | _ =>
    rw [hfield] at hvalid
    cases hvalid

lemma readMounts_argv {mounts : List Mount} (htyped : Typed env cfg request)
    (hmode : ∀ m ∈ mounts, m.mode ∈ ["ro", "rw"])
    (h : buildLaunchArgv env request mounts = .ok argv) :
    readMounts argv = if ∀ m ∈ mounts, m.Readable then some mounts else none := by
  obtain ⟨image, himage, hvalid⟩ := image_of_typed htyped
  simp only [buildLaunchArgv, bind_eq_ok, pure, Except.pure, Except.ok.injEq] at h
  obtain ⟨items, -, command, -, rfl⟩ := h
  rw [textField_str himage]
  simp only [List.append_assoc, List.cons_append, List.nil_append, readMounts]
  rw [readOptions, readOptions, readOptions]
  refine readOptions_mounts hmode ?_
  rw [readOptions, readOptions_env]
  exact readOptions_image hvalid _

lemma text_ne_empty (p : AbsPath) : p.text ≠ "" := by
  intro h
  have hlist := congrArg String.toList h
  simp [AbsPath.text, String.toList_append] at hlist

lemma mem_intercalate {c : Char} (hc : c ≠ '/') (parts : List String) :
    c ∈ ("/".intercalate parts).toList ↔ ∃ part ∈ parts, c ∈ part.toList := by
  induction parts with
  | nil => simp
  | cons part rest ih =>
    cases rest with
    | nil => simp
    | cons part' rest =>
      rw [String.intercalate_cons_cons, String.toList_append, String.toList_append]
      simp only [List.mem_append, ih, List.exists_mem_cons_iff]
      simp [hc]

lemma colon_text (p : AbsPath) :
    ':' ∈ p.text.toList ↔ ∃ part ∈ p.parts, ':' ∈ part.toList := by
  rw [AbsPath.text, String.toList_append, List.mem_append, mem_intercalate (by decide)]
  exact or_iff_right (by decide)

lemma colon_join (p : AbsPath) (rel : List String) : ':' ∈ (p.join rel).text.toList ↔
    ':' ∈ p.text.toList ∨ ∃ part ∈ rel, ':' ∈ part.toList := by
  simp only [colon_text, AbsPath.join, List.mem_append, or_and_right, exists_or]

lemma colon_authDir {cfg : PathConfig} {rel : List String} (h : rel ∈ authDirRelatives) :
    ':' ∈ (cfg.authHome.join rel).text.toList ↔ ':' ∈ cfg.authHome.text.toList := by
  rw [colon_join]
  refine or_iff_left ?_
  have hfixed : ∀ rel ∈ authDirRelatives, ¬ ∃ part ∈ rel, ':' ∈ part.toList := by decide
  exact hfixed rel h

lemma colon_credential (cfg : PathConfig) :
    ':' ∈ cfg.credential.text.toList ↔ ':' ∈ cfg.authHome.text.toList := by
  rw [PathConfig.credential, colon_join]
  exact or_iff_left (by decide)

lemma sanitizeNamespace_eq (ns : String) : sanitizeNamespace ns =
    "/".intercalate (if namespaceParts ns = [] then ["unnamed"] else namespaceParts ns) := by
  rw [sanitizeNamespace]
  split_ifs <;> simp

lemma colon_state {cfg : PathConfig} {ns : String} (h : sanitizeNamespace ns = ns) :
    ':' ∈ (stateSource cfg ns).text.toList ↔ ':' ∈ cfg.stateRoot.text.toList ∨ ':' ∈ ns.toList := by
  rw [stateSource, colon_join]
  refine or_congr_right ?_
  conv_rhs => rw [← h, sanitizeNamespace_eq]
  rw [mem_intercalate (by decide)]

lemma of_mem_splitOn {sep : Char} {l part : List Char} (h : part ∈ l.splitOn sep) :
    ∀ c ∈ part, c ∈ l ∧ c ≠ sep := by
  induction l generalizing part with
  | nil => simp_all
  | cons x l ih =>
    rw [List.splitOn_cons_eq_if_modifyHead] at h
    cases hsplit : l.splitOn sep with
    | nil => exact absurd hsplit (List.splitOn_ne_nil _ _)
    | cons first rest =>
      rw [hsplit] at h ih
      grind [List.modifyHead]

lemma namespaceParts_clean {ns p : String} (h : p ∈ namespaceParts ns) :
    '/' ∉ p.toList ∧ '\\' ∉ p.toList ∧ p ∉ ["", ".", ".."] := by
  obtain ⟨hsplit, hkept⟩ := List.mem_filter.mp h
  obtain ⟨part, hpart, rfl⟩ := List.mem_map.mp hsplit
  have hchars := of_mem_splitOn hpart
  simp only [String.toList_ofList] at hchars ⊢
  refine ⟨fun hin => (hchars _ hin).2 rfl, fun hin => ?_, by simpa using hkept⟩
  obtain ⟨c, -, hc⟩ := List.mem_map.mp (hchars _ hin).1
  split_ifs at hc with hback
  · cases hc
  · exact hback hc

lemma namespaceParts_intercalate {parts : List String} (hne : parts ≠ [])
    (h : ∀ p ∈ parts, '/' ∉ p.toList ∧ '\\' ∉ p.toList ∧ p ∉ ["", ".", ".."]) :
    namespaceParts ("/".intercalate parts) = parts := by
  have hback : ("/".intercalate parts).toList.map (fun c => if c = '\\' then '/' else c) =
      ("/".intercalate parts).toList := by
    refine (List.map_congr_left fun c hc => if_neg ?_).trans (List.map_id' _)
    rintro rfl
    obtain ⟨p, hp, hin⟩ := (mem_intercalate (by decide) _).mp hc
    exact (h p hp).2.1 hin
  rw [namespaceParts, hback, String.ofList_toList, split, String.toList_intercalate,
    show "/".toList = ['/'] by rfl,
    List.splitOn_intercalate _ (by simpa using fun p hp => (h p hp).1) (by simpa using hne),
    List.map_map]
  simpa using fun p hp => (h p hp).2.2

/-- A namespace is valid exactly if it is one that is minted, and what is mounted for it does not
depend on whether it was minted before. No namespace leaves the state root, or is the root. -/
theorem minted_iff_valid (cfg : PathConfig) (ns : String) :
    (validStateNamespace (.str ns) = true ↔ ∃ identifier, sanitizeNamespace identifier = ns) ∧
      stateSource cfg (sanitizeNamespace ns) = stateSource cfg ns ∧
      ∃ rel, rel ≠ [] ∧ (∀ p ∈ rel, '/' ∉ p.toList ∧ p ∉ ["", ".", ".."]) ∧
        stateSource cfg ns = cfg.stateRoot.join rel := by
  have hparts (ns : String) : namespaceParts (sanitizeNamespace ns) =
      if namespaceParts ns = [] then ["unnamed"] else namespaceParts ns := by
    rw [sanitizeNamespace_eq]
    apply namespaceParts_intercalate
    · split_ifs <;> simp [*]
    · split_ifs
      · decide
      · exact fun p => namespaceParts_clean
  have hne (ns : String) : namespaceParts (sanitizeNamespace ns) ≠ [] := by
    rw [hparts]
    split_ifs <;> simp [*]
  have hagain (ns : String) : sanitizeNamespace (sanitizeNamespace ns) = sanitizeNamespace ns := by
    rw [sanitizeNamespace_eq, if_neg (hne ns), hparts, ← sanitizeNamespace_eq]
  refine ⟨⟨fun h => ⟨ns, ?_⟩, ?_⟩, ?_, namespaceParts (sanitizeNamespace ns), hne ns, ?_, ?_⟩
  · simp_all [validStateNamespace]
  · rintro ⟨identifier, rfl⟩
    simp only [validStateNamespace, hagain, decide_true, Bool.and_true, decide_eq_true_eq]
    intro hempty
    apply hne identifier
    rw [hempty]
    decide +kernel
  · rw [stateSource, if_neg (hne ns), hparts, stateSource]
  · exact fun p hp => (namespaceParts_clean hp).imp_right And.right
  · rw [hparts, stateSource]

lemma readable_text {p : AbsPath} {target mode : String} (hmode : mode ∈ ["ro", "rw"]) :
    Mount.Readable ⟨p.text, target, mode⟩ ↔ ':' ∉ p.text.toList ∧ ':' ∉ target.toList := by
  simp [Mount.Readable, text_ne_empty, hmode]

lemma private_readable {cfg : PathConfig} {ns : String} (h : sanitizeNamespace ns = ns) :
    (∀ m ∈ privateMounts cfg ns, m.Readable) ↔
      ':' ∉ cfg.authHome.text.toList ∧ ':' ∉ cfg.stateRoot.text.toList ∧ ':' ∉ ns.toList := by
  have hauth : (∀ m ∈ cfg.authDirs.map fun d => (⟨d.text, d.text, "ro"⟩ : Mount), m.Readable) ↔
      ':' ∉ cfg.authHome.text.toList := by
    rw [PathConfig.authDirs, List.map_map]
    constructor
    · intro hall
      have hfirst := hall _ (List.mem_map_of_mem (by simp [authDirRelatives] :
        [".claude"] ∈ authDirRelatives))
      rw [Function.comp, readable_text (by simp)] at hfirst
      exact (not_congr (colon_authDir (by simp [authDirRelatives]))).mp hfirst.1
    · intro hhome m hm
      obtain ⟨rel, hrel, rfl⟩ := List.mem_map.mp hm
      rw [Function.comp, readable_text (by simp), colon_authDir hrel]
      exact ⟨hhome, hhome⟩
  rw [privateMounts, List.forall_mem_append, hauth, List.forall_mem_cons, List.forall_mem_singleton,
    readable_text (by simp), readable_text (by simp), colon_state h, colon_credential, not_or]
  obtain ⟨htarget, hfile⟩ : ':' ∉ stateTarget.toList ∧ ':' ∉ authCredFile.toList := by decide
  constructor
  · rintro ⟨hhome, ⟨⟨hstate, hpath⟩, -⟩, -⟩
    exact ⟨hhome, hstate, hpath⟩
  · rintro ⟨hhome, hstate, hpath⟩
    exact ⟨hhome, ⟨⟨hstate, hpath⟩, htarget⟩, hhome, hfile⟩

lemma verifier_readable {cfg : PathConfig} (ns : String) {clone : Option String}
    (hclone : clone ≠ some "") : (∀ m ∈ verifierMounts cfg clone, m.Readable) ↔
      ∀ path ∈ mountedPaths cfg true ns clone, ':' ∉ path.toList := by
  obtain ⟨htree, hrepo, hgit⟩ : ':' ∉ worktreeTarget.toList ∧ ':' ∉ repoTarget.toList ∧
      ':' ∉ repoGitTarget.toList := by decide
  cases clone with
  | some c =>
    have hne : c ≠ "" := fun h => hclone (congrArg some h)
    simp [verifierMounts, mountedPaths, Mount.Readable, hne, hrepo]
  | none =>
    have hro : "ro" ∈ ["ro", "rw"] := by simp
    simp only [verifierMounts, List.forall_mem_cons, readable_text hro, mountedPaths, if_true]
    constructor
    · rintro ⟨⟨htrees, -⟩, ⟨hroot, -⟩, ⟨hgitDir, -⟩, -⟩
      exact ⟨htrees, hroot, hgitDir, List.forall_mem_nil _⟩
    · rintro ⟨htrees, hroot, hgitDir, -⟩
      exact ⟨⟨htrees, htree⟩, ⟨hroot, hrepo⟩, ⟨hgitDir, hgit⟩, ⟨hroot, hroot⟩, ⟨hgitDir, hgitDir⟩,
        List.forall_mem_nil _⟩

lemma agent_readable {cfg : PathConfig} {profile mode ns : String} {clone : Option String}
    (hmode : mode ∈ ["ro", "rw"]) (hns : sanitizeNamespace ns = ns) (hclone : clone ≠ some "") :
    (∀ m ∈ agentMounts cfg profile mode ns clone, m.Readable) ↔
      ∀ path ∈ mountedPaths cfg false ns clone, ':' ∉ path.toList := by
  obtain ⟨htree, hrepo, hgit, hresults⟩ : ':' ∉ worktreeTarget.toList ∧ ':' ∉ repoTarget.toList ∧
      ':' ∉ repoGitTarget.toList ∧ ':' ∉ resultsTarget.toList := by decide
  cases clone with
  | some c =>
    have hne : c ≠ "" := fun h => hclone (congrArg some h)
    have hkept : (if profile = "repo_readonly" then "ro" else "rw") ∈ ["ro", "rw"] := by
      split_ifs <;> simp
    have hown : Mount.Readable ⟨c, repoTarget, if profile = "repo_readonly" then "ro" else "rw"⟩ ↔
        ':' ∉ c.toList :=
      ⟨fun h => h.2.2.1, fun h => ⟨hne, hkept, h, hrepo⟩⟩
    simp only [agentMounts, List.forall_mem_append, private_readable hns, List.forall_mem_cons,
      readable_text hmode, hown, mountedPaths, Bool.false_eq_true, if_false]
    constructor
    · rintro ⟨⟨⟨hdir, -⟩, hc, -⟩, hhome, hstate, hpath⟩
      exact ⟨hdir, hc, hhome, hstate, hpath, List.forall_mem_nil _⟩
    · rintro ⟨hdir, hc, hhome, hstate, hpath, -⟩
      exact ⟨⟨⟨hdir, hresults⟩, hc, List.forall_mem_nil _⟩, hhome, hstate, hpath⟩
  | none =>
    have hro : "ro" ∈ ["ro", "rw"] := by simp
    have hrw : "rw" ∈ ["ro", "rw"] := by simp
    simp only [agentMounts, List.forall_mem_append, private_readable hns, List.forall_mem_cons,
      readable_text hro, readable_text hrw, readable_text hmode, mountedPaths, Bool.false_eq_true,
      if_false]
    constructor
    · rintro ⟨⟨⟨htrees, -⟩, ⟨hdir, -⟩, ⟨hroot, -⟩, ⟨hgitDir, -⟩, -⟩, hhome, hstate, hpath⟩
      exact ⟨htrees, hdir, hroot, hgitDir, hhome, hstate, hpath, List.forall_mem_nil _⟩
    · rintro ⟨htrees, hdir, hroot, hgitDir, hhome, hstate, hpath, -⟩
      exact ⟨⟨⟨htrees, htree⟩, ⟨hdir, hresults⟩, ⟨hroot, hrepo⟩, ⟨hgitDir, hgit⟩, ⟨hroot, hroot⟩,
        ⟨hgitDir, hgitDir⟩, List.forall_mem_nil _⟩, hhome, hstate, hpath⟩

lemma verifier_modes {m : Mount} {clone : Option String} (h : m ∈ verifierMounts cfg clone) :
    m.mode ∈ ["ro", "rw"] := by
  rw [(verifierMounts_readOnly h).1]
  simp

lemma agent_modes {m : Mount} {profile mode ns : String} {clone : Option String}
    (hmode : mode ∈ ["ro", "rw"]) (h : m ∈ agentMounts cfg profile mode ns clone) :
    m.mode ∈ ["ro", "rw"] := by
  have hprivate : ∀ m ∈ privateMounts cfg ns, m.mode ∈ ["ro", "rw"] := by
    intro m hm
    simp only [privateMounts, List.mem_append, List.mem_map, List.mem_cons, List.not_mem_nil,
      or_false] at hm
    rcases hm with ⟨d, -, rfl⟩ | rfl | rfl <;> simp
  cases clone with
  | some c =>
    simp only [agentMounts, List.mem_append, List.mem_cons, List.not_mem_nil, or_false] at h
    rcases h with (rfl | rfl) | h
    · exact hmode
    · by_cases hread : profile = "repo_readonly" <;> simp [hread]
    · exact hprivate m h
  | none =>
    simp only [agentMounts, List.mem_append, List.mem_cons, List.not_mem_nil, or_false] at h
    rcases h with (rfl | rfl | rfl | rfl | rfl | rfl) | h
    · simp
    · exact hmode
    · simp
    · simp
    · simp
    · simp
    · exact hprivate m h

lemma underRoots_root {root : AbsPath} (h : root ∈ cfg.roots) : UnderRoots env cfg root.text :=
  ⟨root, h, .inl ⟨[], List.not_mem_nil, by rw [AbsPath.join, List.append_nil]⟩⟩

lemma underRoots_join {root : AbsPath} {rel : List String} (h : root ∈ cfg.roots)
    (hrel : ".." ∉ rel) : UnderRoots env cfg (root.join rel).text :=
  ⟨root, h, .inl ⟨rel, hrel, rfl⟩⟩

lemma underRoots_private {m : Mount} {ns : String} (h : m ∈ privateMounts cfg ns) :
    UnderRoots env cfg m.source := by
  have hauth : cfg.authHome ∈ cfg.roots := by simp [PathConfig.roots]
  simp only [privateMounts, PathConfig.authDirs, List.mem_append, List.mem_map, List.mem_cons,
    List.not_mem_nil, or_false] at h
  rcases h with ⟨d, ⟨rel, hrel, rfl⟩, rfl⟩ | rfl | rfl
  · have hfixed : ∀ rel ∈ authDirRelatives, ".." ∉ rel := by decide
    exact underRoots_join hauth (hfixed rel hrel)
  · refine underRoots_join (by simp [PathConfig.roots]) ?_
    split_ifs
    · decide
    · simp [namespaceParts]
  · exact underRoots_join hauth (by decide)

lemma underRoots_verifier {m : Mount} {clone : Option String}
    (hclone : ∀ c ∈ clone, UnderRoots env cfg c) (h : m ∈ verifierMounts cfg clone) :
    UnderRoots env cfg m.source := by
  cases clone with
  | some c =>
    rw [verifierMounts, List.mem_singleton] at h
    subst h
    exact hclone c rfl
  | none =>
    simp only [verifierMounts, List.mem_cons, List.not_mem_nil, or_false] at h
    rcases h with rfl | rfl | rfl | rfl | rfl <;>
      exact underRoots_root (by simp [PathConfig.roots])

lemma underRoots_agent {m : Mount} {profile mode ns : String} {clone : Option String}
    (hclone : ∀ c ∈ clone, UnderRoots env cfg c) (h : m ∈ agentMounts cfg profile mode ns clone) :
    UnderRoots env cfg m.source := by
  cases clone with
  | some c =>
    simp only [agentMounts, List.mem_append, List.mem_cons, List.not_mem_nil, or_false] at h
    rcases h with (rfl | rfl) | h
    · exact underRoots_root (by simp [PathConfig.roots])
    · exact hclone c rfl
    · exact underRoots_private h
  | none =>
    simp only [agentMounts, List.mem_append, List.mem_cons, List.not_mem_nil, or_false] at h
    rcases h with h | h
    · rcases h with rfl | rfl | rfl | rfl | rfl | rfl <;>
        exact underRoots_root (by simp [PathConfig.roots])
    · exact underRoots_private h

lemma underRoots_clone (htyped : Typed env cfg request)
    (hcfg : validationConfig hostConfig request = .ok cfg) :
    ∀ c ∈ validatedClone request, UnderRoots env hostConfig c := by
  intro c hc
  have hroot : cfg.runsRoot = hostConfig.runsRoot := by
    rw [validationConfig] at hcfg
    obtain ⟨known, -, hcfg⟩ := bind_eq_ok.mp hcfg
    simp only [pure, Except.pure, Except.ok.injEq] at hcfg
    rw [← hcfg]
    split_ifs <;> rfl
  have hclone := htyped.clone
  rw [validatedClone] at hc
  rw [cloneErrors] at hclone
  cases hfield : field "run_clone" request with
  | str clone =>
    rw [hfield] at hc hclone
    by_cases hempty : clone = ""
    · simp [hempty] at hc
    · simp only [if_neg hempty, Option.mem_def, Option.some.injEq] at hc
      subst hc
      refine ⟨hostConfig.runsRoot, by simp [PathConfig.roots], .inr ?_⟩
      have hdir : isRunCloneDir env cfg clone = true := by
        by_contra hstray
        simp only [absent, hempty, decide_false, Bool.false_eq_true, if_false, hstray] at hclone
        split_ifs at hclone
      rw [isRunCloneDir, hroot] at hdir
      simp only [Bool.and_eq_true] at hdir
      exact List.isPrefixOf_iff_prefix.mp hdir.1.1
  | _ =>
    rw [hfield] at hc
    cases hc

lemma clonePath_eq (htyped : Typed env cfg request) (h : field "run_clone" request ≠ .str "") :
    clonePath env request = validatedClone request := by
  have hclone := htyped.clone
  rw [cloneErrors] at hclone
  rw [clonePath, validatedClone]
  cases hfield : field "run_clone" request with
  | null => rfl
  | str clone =>
    have hempty : clone ≠ "" := fun hempty => h (hempty ▸ hfield)
    simp [Json.text, hempty]
  | _ =>
    rw [hfield] at hclone
    simp [absent] at hclone

lemma clonePath_empty (h : field "run_clone" request = .str "") :
    clonePath env request = some "" := by
  rw [clonePath, h]
  rfl

/-- Docker mounts what was checked exactly when no path holds its separator and the clone is not the
empty text, which the checks take for no clone and the expansion for the path of one. Nothing that
was checked as read-only is ever mounted writable. -/
theorem executed_isolation_iff {doc : Json} (h : launch env hostConfig armed now doc = .ok argv) :
    ∃ request, doc = .obj request ∧
      (Isolated env hostConfig request argv ↔ Separable env hostConfig request) ∧
      NoUpgrade env hostConfig request argv := by
  cases doc with
  | obj request =>
    obtain ⟨cfg, name, ns, p, hcfg, htyped, -, hname, hns, hp, hverifier, hargv⟩ := launch_mounts h
    obtain ⟨ns', hns', hsafe⟩ := namespace_of_typed htyped
    rw [hns, Json.str.injEq] at hns'
    subst hns'
    have hmode : Python.orElse p.resultsMode "rw" ∈ ["ro", "rw"] := by
      have htable : ∀ kv ∈ mountProfiles, Python.orElse kv.2.resultsMode "rw" ∈ ["ro", "rw"] := by
        decide
      exact htable _ (Dict.mem_of_get? hp)
    have hexpand : validatedMounts env hostConfig request = some (if p.verifier
        then verifierMounts hostConfig (validatedClone request)
        else agentMounts hostConfig name (Python.orElse p.resultsMode "rw") ns
          (validatedClone request)) := by
      rw [validatedMounts, textField_str hname, textField_str hns, mountsForProfile, hp]
      rfl
    have hread := readMounts_argv htyped (fun m hm => by
      split_ifs at hm
      · exact verifier_modes hm
      · exact agent_modes hmode hm) hargv
    refine ⟨request, rfl, ?_⟩
    by_cases hempty : field "run_clone" request = .str ""
    · have hnone : readMounts argv = none := by
        rw [hread, if_neg]
        intro hall
        rw [clonePath_empty hempty] at hall
        have hblank : ∃ target mode, (⟨"", target, mode⟩ : Mount) ∈ if p.verifier
            then verifierMounts hostConfig (some "")
            else agentMounts hostConfig name (Python.orElse p.resultsMode "rw") ns (some "") := by
          split_ifs
          · exact ⟨_, _, List.mem_singleton_self _⟩
          · exact ⟨_, _, List.mem_append_left _ (List.mem_cons_of_mem _ List.mem_cons_self)⟩
        obtain ⟨target, mode, hmem⟩ := hblank
        exact (hall _ hmem).1 rfl
      refine ⟨⟨fun hisolated => ?_, fun hsep => absurd hempty hsep.1⟩, fun mounts hmounts => ?_⟩
      · have hexact := hisolated.exact
        rw [hnone, hexpand] at hexact
        cases hexact
      · rw [hnone] at hmounts
        cases hmounts
    · rw [clonePath_eq htyped hempty] at hread
      have hclone : validatedClone request ≠ some "" := by
        rw [validatedClone]
        cases hfield : field "run_clone" request with
        | str clone => by_cases hblank : clone = "" <;> simp [hblank]
        | _ => simp
      have hrooted := underRoots_clone htyped hcfg
      have hreadable : (∀ m ∈ if p.verifier then verifierMounts hostConfig (validatedClone request)
          else agentMounts hostConfig name (Python.orElse p.resultsMode "rw") ns
            (validatedClone request), m.Readable) ↔ Separable env hostConfig request := by
        rw [Separable, textField_str hns, ← hverifier, and_iff_right hempty]
        cases p.verifier with
        | true => exact verifier_readable ns hclone
        | false => exact agent_readable hmode hsafe hclone
      have hlost (hbad : ¬ Separable env hostConfig request) : readMounts argv = none := by
        rw [hread, if_neg fun hall => hbad (hreadable.mp hall)]
      have hkept (hsep : Separable env hostConfig request) :
          readMounts argv = validatedMounts env hostConfig request := by
        rw [hread, if_pos (hreadable.mpr hsep), hexpand]
      have hexact {mounts : List Mount} (hmounts : readMounts argv = some mounts) :
          validatedMounts env hostConfig request = some mounts := by
        by_cases hsep : Separable env hostConfig request
        · rw [← hkept hsep, hmounts]
        · rw [hlost hsep] at hmounts
          cases hmounts
      refine ⟨⟨fun hisolated => ?_, fun hsep => ⟨hkept hsep, fun mounts hmounts m hm => ?_⟩⟩,
        fun mounts hmounts m hm _ => ⟨mounts, hexact hmounts, hm⟩⟩
      · by_contra hbad
        have hsame := hisolated.exact
        rw [hlost hbad, hexpand] at hsame
        cases hsame
      · have hsame := hexact hmounts
        rw [hexpand, Option.some.injEq] at hsame
        rw [← hsame] at hm
        split_ifs at hm
        · exact underRoots_verifier hrooted hm
        · exact underRoots_agent hrooted hm
  | _ =>
    simp [launch, validateLaunchRequest, pure, Except.pure, bind, Except.bind, Except.mapError,
      throw, throwThe, MonadExceptOf.throw] at h

lemma launches_computed :
    (launch plainSurroundings plainConfig false (.finite 10)
        (.obj (agentRequest []))).toOption.isSome = true ∧
      (∀ path ∈ mountedPaths plainConfig (isVerifierRequest (agentRequest []))
          (textField plainSurroundings "state_namespace" (agentRequest []))
          (validatedClone (agentRequest [])), ':' ∉ path.toList) ∧
      (launch plainSurroundings plainConfig false (.finite 10)
        (.obj (agentRequest [("run_clone", .str "")]))).toOption.any fun argv =>
          "-v" ∈ argv ∧ ":/repo:rw" ∈ argv ∧ readMounts argv = none := by
  decide +kernel

/-- An agent of the shared world. -/
theorem executed_isolation_shared : ∃ argv,
    launch plainSurroundings plainConfig false (.finite 10) (.obj (agentRequest [])) = .ok argv ∧
      Isolated plainSurroundings plainConfig (agentRequest []) argv := by
  obtain ⟨argv, h⟩ := ok_of_isSome launches_computed.1
  obtain ⟨request, hdoc, hiff, -⟩ := executed_isolation_iff h
  cases hdoc
  refine ⟨argv, h, hiff.mpr ⟨by simp [field, Dict.get?, agentRequest], ?_⟩⟩
  exact launches_computed.2.1

/-- An agent whose clone is the empty text: docker is given a mount without a source. -/
theorem empty_clone_unmounted : ∃ argv, launch plainSurroundings plainConfig false (.finite 10)
    (.obj (agentRequest [("run_clone", .str "")])) = .ok argv ∧ "-v" ∈ argv ∧ ":/repo:rw" ∈ argv ∧
      ¬ Isolated plainSurroundings plainConfig (agentRequest [("run_clone", .str "")]) argv := by
  have hargv := launches_computed.2.2
  cases hlaunch : launch plainSurroundings plainConfig false (.finite 10)
      (.obj (agentRequest [("run_clone", .str "")])) with
  | error e =>
    rw [hlaunch] at hargv
    cases hargv
  | ok argv =>
    rw [hlaunch] at hargv
    obtain ⟨hflag, hspec, hnone⟩ := of_decide_eq_true hargv
    refine ⟨argv, rfl, hflag, hspec, fun hisolated => ?_⟩
    have hexact := hisolated.exact
    rw [hnone] at hexact
    cases hexact

end Executed

end AgenticDynamics.Fleet.Broker
