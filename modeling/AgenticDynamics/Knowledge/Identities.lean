import AgenticDynamics.Library.Joined
import AgenticDynamics.Library.Lines
import AgenticDynamics.Knowledge.BeliefChain

/-!
# Whose an identity is

An identity is the digest of its components, joined with a bar. The components are taken as they
come: nothing keeps the bar out of them. An identity tells its components apart from all others
exactly if a bar in them cannot be read as the one between two components.
-/

namespace AgenticDynamics.Knowledge.Identities

open Python Beliefs Joined

/-- No other text has the digest of this one. -/
def SoleText (digest : String → String) (text : String) : Prop :=
  ∀ other, digest other = digest text → other = text

section Identities

variable (host : Host)

def EntityAlone (repositoryId sourceUri logicalLocator : String) : Prop :=
  ∀ repositoryId' sourceUri' logicalLocator',
    computeEntityId host repositoryId' sourceUri' logicalLocator' =
      computeEntityId host repositoryId sourceUri logicalLocator →
    repositoryId' = repositoryId ∧ sourceUri' = sourceUri ∧ logicalLocator' = logicalLocator

def KnowledgeAlone (entityId sourceRevision contentHash extractorVersion : String) : Prop :=
  ∀ entityId' sourceRevision' contentHash' extractorVersion',
    computeKnowledgeId host entityId' sourceRevision' contentHash' extractorVersion' =
      computeKnowledgeId host entityId sourceRevision contentHash extractorVersion →
    entityId' = entityId ∧ sourceRevision' = sourceRevision ∧ contentHash' = contentHash ∧
      extractorVersion' = extractorVersion

/-- A belief may have this text in the field. -/
def Accepted (field s : String) : Prop := ∃ belief, requiredValue host belief field = .ok s

/-- No other pair that a belief may have gets its id. -/
def BeliefAlone (domain hypothesis : String) : Prop :=
  ∀ domain' hypothesis', Accepted host "domain" domain' →
    Accepted host "hypothesis" hypothesis' →
    beliefId host domain' hypothesis' = beliefId host domain hypothesis →
    domain' = domain ∧ hypothesis' = hypothesis

/-- What `belief_id` keeps of the digest. -/
def beliefDigest (text : String) : String := String.ofList ((host.sha256 text).toList.take 16)

end Identities

def BarFree (parts : List String) : Prop := ∀ part ∈ parts, '|' ∉ part.toList

instance (parts : List String) : Decidable (BarFree parts) :=
  inferInstanceAs (Decidable (∀ part ∈ parts, '|' ∉ part.toList))

/-- Neither the text before a bar ends with a blank, nor does the one after it begin with one. -/
def Exposed (before after : List Char) : Prop :=
  (∀ a ∈ before.getLast?, isSpace a = false) ∧ ∀ b ∈ after.head?, isSpace b = false

/-- Each bar of the domain is its first character or stands at a blank; each bar of the hypothesis
is its last character or stands at a blank. -/
structure BarsShielded (domain hypothesis : String) : Prop where
  domain : ∀ before after, domain.toList = before ++ '|' :: after → before ≠ [] →
    ¬ Exposed before after
  hypothesis : ∀ before after, hypothesis.toList = before ++ '|' :: after → after ≠ [] →
    ¬ Exposed before after

section Digests

variable {host : Host}

/-! ### Tuples of arbitrary components -/

lemma sha256_alone_iff {parts : List String} (htwo : 2 ≤ parts.length)
    (hsole : SoleText host.sha256 ("|".intercalate parts)) :
    (∀ parts', parts'.length = parts.length → sha256 host parts' = sha256 host parts →
      parts' = parts) ↔ BarFree parts := by
  have htext (parts' : List String) : "|".intercalate parts' = "|".intercalate parts ↔
      ['|'].intercalate (parts'.map String.toList) =
        ['|'].intercalate (parts.map String.toList) := by
    rw [← String.toList_inj, String.toList_intercalate, String.toList_intercalate]
    rfl
  have hinj : Function.Injective (List.map String.toList) :=
    List.map_injective_iff.mpr fun _ _ h => String.toList_inj.mp h
  have halone := @alone_iff Char '|' (parts.map String.toList) _ (by simpa using htwo)
  rw [show BarFree parts ↔ ∀ l ∈ parts.map String.toList, '|' ∉ l by simp [BarFree], ← halone]
  constructor
  · intro h ls' hlength hjoined
    have hls' : (ls'.map String.ofList).map String.toList = ls' := by simp
    rw [← hls'] at hjoined ⊢
    rw [h _ (by simpa using hlength) (congrArg host.sha256 ((htext _).mpr hjoined))]
  · intro h parts' hlength hdigest
    exact hinj (h _ (by simpa using hlength) ((htext _).mp (hsole _ hdigest)))

lemma entityAlone_iff {repositoryId sourceUri logicalLocator : String}
    (hsole : SoleText host.sha256 ("|".intercalate [repositoryId, sourceUri, logicalLocator])) :
    EntityAlone host repositoryId sourceUri logicalLocator ↔
      BarFree [repositoryId, sourceUri, logicalLocator] := by
  rw [← sha256_alone_iff (by simp) hsole]
  constructor
  · intro halone parts' hlength hdigest
    obtain ⟨r, u, l, rfl⟩ := List.length_eq_three.mp hlength
    obtain ⟨rfl, rfl, rfl⟩ := halone r u l hdigest
    rfl
  · intro h r u l hdigest
    simpa using h [r, u, l] rfl hdigest

lemma knowledgeAlone_iff {entityId sourceRevision contentHash extractorVersion : String}
    (hsole : SoleText host.sha256
      ("|".intercalate [entityId, sourceRevision, contentHash, extractorVersion])) :
    KnowledgeAlone host entityId sourceRevision contentHash extractorVersion ↔
      BarFree [entityId, sourceRevision, contentHash, extractorVersion] := by
  rw [← sha256_alone_iff (by simp) hsole]
  constructor
  · intro halone parts' hlength hdigest
    obtain ⟨e, rest, rfl⟩ := List.exists_cons_of_length_eq_add_one hlength
    obtain ⟨r, c, x, rfl⟩ := List.length_eq_three.mp (by simpa using hlength)
    obtain ⟨rfl, rfl, rfl, rfl⟩ := halone e r c x hdigest
    rfl
  · intro h e r c x hdigest
    simpa using h [e, r, c, x] rfl hdigest

/-! ### Domains and hypotheses -/

lemma accepted_iff {field s : String} : Accepted host field s ↔ Filled s := by
  constructor
  · rintro ⟨belief, h⟩
    obtain ⟨rfl, hne⟩ := requiredValue_eq_ok.mp h
    exact ⟨strip_strip _, hne⟩
  · rintro ⟨hstrip, hne⟩
    refine ⟨[(field, .str s)], requiredValue_eq_ok.mpr ⟨?_, hne⟩⟩
    have hfield : Dict.get? field [(field, Json.str s)] = some (.str s) := by simp [Dict.get?]
    rw [textOf_str hfield, hstrip]

lemma filled_iff {s : String} : Filled s ↔ Bare isSpace s.toList ∧ s.toList ≠ [] := by
  rw [Filled, ← String.toList_inj, toList_strip, trim_eq_self_iff, ne_eq, ne_eq,
    String.toList_eq_nil_iff]

lemma bare_append_bar_iff {before after : List Char} :
    Bare isSpace (before ++ '|' :: after) ↔
      (∀ a ∈ before.head?, isSpace a = false) ∧ ∀ b ∈ after.getLast?, isSpace b = false := by
  have hbar : isSpace '|' = false := by decide
  refine and_congr ?_ ?_
  · cases before <;> simp [hbar]
  · rw [List.getLast?_append]
    cases after <;> simp [hbar, List.getLast?_cons]

lemma bare_cut_left_iff {before after rest : List Char}
    (hleft : Bare isSpace (before ++ '|' :: after)) (hright : Bare isSpace rest) :
    Bare isSpace before ∧ Bare isSpace (after ++ '|' :: rest) ↔ Exposed before after := by
  rw [bare_append_bar_iff] at hleft ⊢
  constructor
  · rintro ⟨⟨-, hlast⟩, hhead, -⟩
    exact ⟨hlast, hhead⟩
  · rintro ⟨hlast, hhead⟩
    exact ⟨⟨hleft.1, hlast⟩, hhead, hright.2⟩

lemma bare_cut_right_iff {first before after : List Char} (hleft : Bare isSpace first)
    (hright : Bare isSpace (before ++ '|' :: after)) :
    Bare isSpace (first ++ '|' :: before) ∧ Bare isSpace after ↔ Exposed before after := by
  rw [bare_append_bar_iff] at hright ⊢
  constructor
  · rintro ⟨⟨-, hlast⟩, hhead, -⟩
    exact ⟨hlast, hhead⟩
  · rintro ⟨hlast, hhead⟩
    exact ⟨⟨hleft.1, hlast⟩, hhead, hright.2⟩

lemma beliefAlone_iff_lists {domain hypothesis : String}
    (hsole : SoleText (beliefDigest host) (domain ++ "|" ++ hypothesis)) :
    BeliefAlone host domain hypothesis ↔
      ∀ x y : List Char, Bare isSpace x ∧ x ≠ [] → Bare isSpace y ∧ y ≠ [] →
        x ++ '|' :: y = domain.toList ++ '|' :: hypothesis.toList →
        x = domain.toList ∧ y = hypothesis.toList := by
  have htext (d h : String) : d ++ "|" ++ h = domain ++ "|" ++ hypothesis ↔
      d.toList ++ '|' :: h.toList = domain.toList ++ '|' :: hypothesis.toList := by
    rw [← String.toList_inj]
    simp
  constructor
  · intro halone x y hx hy hjoined
    obtain ⟨hdomain, hhypothesis⟩ := halone (String.ofList x) (String.ofList y)
      (accepted_iff.mpr (filled_iff.mpr (by simpa using hx)))
      (accepted_iff.mpr (filled_iff.mpr (by simpa using hy)))
      (congrArg (beliefDigest host) ((htext _ _).mpr (by simpa using hjoined)))
    rw [← hdomain, ← hhypothesis]
    simp
  · intro h d' h' hd hh hdigest
    obtain ⟨hdomain, hhypothesis⟩ := h d'.toList h'.toList (filled_iff.mp (accepted_iff.mp hd))
      (filled_iff.mp (accepted_iff.mp hh)) ((htext _ _).mp (hsole _ hdigest))
    exact ⟨String.toList_inj.mp hdomain, String.toList_inj.mp hhypothesis⟩

lemma beliefAlone_iff {domain hypothesis : String} (hdomain : Accepted host "domain" domain)
    (hhypothesis : Accepted host "hypothesis" hypothesis)
    (hsole : SoleText (beliefDigest host) (domain ++ "|" ++ hypothesis)) :
    BeliefAlone host domain hypothesis ↔ BarsShielded domain hypothesis := by
  obtain ⟨hd, -⟩ := filled_iff.mp (accepted_iff.mp hdomain)
  obtain ⟨hh, -⟩ := filled_iff.mp (accepted_iff.mp hhypothesis)
  rw [beliefAlone_iff_lists hsole]
  constructor
  · intro halone
    constructor
    · intro before after hcut hne hexposed
      obtain ⟨hbefore, hafter⟩ := (bare_cut_left_iff (hcut ▸ hd) hh).mpr hexposed
      obtain ⟨hsame, -⟩ := halone before (after ++ '|' :: hypothesis.toList) ⟨hbefore, hne⟩
        ⟨hafter, by simp⟩ (by simp [hcut])
      simp [hsame] at hcut
    · intro before after hcut hne hexposed
      obtain ⟨hbefore, hafter⟩ := (bare_cut_right_iff hd (hcut ▸ hh)).mpr hexposed
      obtain ⟨-, hsame⟩ := halone (domain.toList ++ '|' :: before) after ⟨hbefore, by simp⟩
        ⟨hafter, hne⟩ (by simp [hcut])
      have hlength := congrArg List.length hcut
      rw [← hsame, List.length_append, List.length_cons] at hlength
      omega
  · intro hshielded x y hx hy hjoined
    rcases cut_eq_cut_iff.mp hjoined with hsame | ⟨r, hcut, hr⟩ | ⟨r, hr, hcut⟩
    · exact hsame
    · have hexposed := (bare_cut_left_iff (hcut ▸ hd) hh).mp ⟨hx.1, hr ▸ hy.1⟩
      exact absurd hexposed (hshielded.domain x r hcut hx.2)
    · have hexposed := (bare_cut_right_iff hd (hcut ▸ hh)).mp ⟨hr ▸ hx.1, hy.1⟩
      exact absurd hexposed (hshielded.hypothesis r y hcut hy.2)

/-! ### The three families -/

/-- An entity id and a knowledge id tell their components apart from all others exactly if no
component has a bar in it, a belief id exactly if each bar of its components is shielded. -/
theorem identity_alone_iff (host : Host) :
    (∀ repositoryId sourceUri logicalLocator,
      SoleText host.sha256 ("|".intercalate [repositoryId, sourceUri, logicalLocator]) →
      (EntityAlone host repositoryId sourceUri logicalLocator ↔
        BarFree [repositoryId, sourceUri, logicalLocator])) ∧
    (∀ entityId sourceRevision contentHash extractorVersion,
      SoleText host.sha256
        ("|".intercalate [entityId, sourceRevision, contentHash, extractorVersion]) →
      (KnowledgeAlone host entityId sourceRevision contentHash extractorVersion ↔
        BarFree [entityId, sourceRevision, contentHash, extractorVersion])) ∧
    ∀ domain hypothesis, Accepted host "domain" domain → Accepted host "hypothesis" hypothesis →
      SoleText (beliefDigest host) (domain ++ "|" ++ hypothesis) →
      (BeliefAlone host domain hypothesis ↔ BarsShielded domain hypothesis) :=
  ⟨fun _ _ _ => entityAlone_iff, fun _ _ _ _ => knowledgeAlone_iff, fun _ _ => beliefAlone_iff⟩

end Digests

/-! ### Identities at hand -/

/-- A digest that leaves the text as it is. -/
def plainHost : Host where
  loads _ := .error ("JSONDecodeError", "Expecting value: line 1 column 1 (char 0)")
  repr value := value.typeName
  upper := id
  lower := id
  sha256 := id
  dumps value := value.typeName
  fromisoformat _ := none

lemma sole_plain (text : String) : SoleText plainHost.sha256 text := fun _ h => h

lemma sole_beliefDigest {text : String} (h : text.length < 16) :
    SoleText (beliefDigest plainHost) text := by
  intro other hdigest
  have htake : other.toList.take 16 = text.toList.take 16 := String.ofList_injective hdigest
  have hshort : text.toList.length < 16 := h
  rw [List.take_of_length_le hshort.le] at htake
  have hlength : other.toList.length ≤ 16 := by
    have hmin := congrArg List.length htake
    rw [List.length_take] at hmin
    omega
  rw [List.take_of_length_le hlength] at htake
  exact String.toList_inj.mp htake

lemma accepted_of_filled {field s : String} (h : Filled s) : Accepted plainHost field s :=
  accepted_iff.mpr h

theorem plain_identities_alone :
    EntityAlone plainHost "repo" "docs/a.md" "intro" ∧
      KnowledgeAlone plainHost "e1" "r1" "c1" "x/v1" ∧
      BeliefAlone plainHost "a" "b |c" := by
  obtain ⟨hentity, hknowledge, hbelief⟩ := identity_alone_iff plainHost
  refine ⟨(hentity _ _ _ (sole_plain _)).mpr ?_, (hknowledge _ _ _ _ (sole_plain _)).mpr ?_, ?_⟩
  · decide
  · decide
  · refine (hbelief _ _ (accepted_of_filled (by decide)) (accepted_of_filled (by decide))
      (sole_beliefDigest (by decide))).mpr ⟨?_, ?_⟩
    · intro before after hcut
      have hmem : '|' ∈ "a".toList := by
        rw [hcut]
        simp
      simp at hmem
    · intro before after hcut hne hexposed
      rcases cut_eq_cut_iff.mp (show ['b', ' '] ++ '|' :: ['c'] = before ++ '|' :: after from hcut)
        with ⟨rfl, rfl⟩ | ⟨r, -, hr⟩ | ⟨r, hr, -⟩
      · exact absurd (hexposed.1 ' ' rfl) (by decide)
      · have hmem : '|' ∈ ['c'] := by rw [hr]; simp
        simp at hmem
      · have hmem : '|' ∈ ['b', ' '] := by rw [hr]; simp
        simp at hmem

theorem barred_identities_collide :
    Function.Injective plainHost.sha256 ∧
      SoleText (beliefDigest plainHost) ("ops" ++ "|" ++ "risk|flash") ∧
      ¬ EntityAlone plainHost "repo" "docs/a|b.md" "intro" ∧
      ¬ KnowledgeAlone plainHost "spec:a|b" "r1" "c1" "x/v1" ∧
      ¬ BeliefAlone plainHost "ops" "risk|flash" := by
  refine ⟨fun _ _ h => h, sole_beliefDigest (by decide), fun h => ?_, fun h => ?_, fun h => ?_⟩
  · have hsame := h "repo" "docs/a" "b.md|intro" (by decide)
    exact absurd hsame.2.1 (by decide)
  · have hsame := h "spec:a" "b|r1" "c1" "x/v1" (by decide)
    exact absurd hsame.1 (by decide)
  · have hsame := h "ops|risk" "flash" (accepted_of_filled (by decide))
      (accepted_of_filled (by decide)) (by decide)
    exact absurd hsame.1 (by decide)

end AgenticDynamics.Knowledge.Identities
