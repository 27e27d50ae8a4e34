import AgenticDynamics.Control.QueueReinterleave

/-!
# No two neighbours of one provider

The provider with most cells left goes next, unless it went last. As long as none has more than
half of the cells that are left, and one to spare for all but the last, this never gets stuck.
-/

namespace AgenticDynamics.Control

open Python

variable {rt : Runtime} {groups : Dict (List Json)} {last : Option String} {p q : String}

def ofProvider (rt : Runtime) (p : String) (cell : Json) : Bool :=
  match cellProviderOf rt cell with
  | .ok provider => provider = p
  | .error _     => false

def Apart (rt : Runtime) (a b : Json) : Prop := cellProviderOf rt a ≠ cellProviderOf rt b

lemma ofProvider_iff {cell : Json} : ofProvider rt p cell ↔ cellProviderOf rt cell = .ok p := by
  rw [ofProvider]
  cases cellProviderOf rt cell <;> simp

abbrev cellsLeft (groups : Dict (List Json)) : List Json := groups.flatMap Prod.snd

/-- The groups hold cells of their providers, of which none has more than its share; the one that
went last has no cell to spare. -/
structure Balanced (rt : Runtime) (groups : Dict (List Json)) (last : Option String) : Prop where
  keys : (groups.map Prod.fst).Nodup
  labelled : ∀ kv ∈ groups, ∀ cell ∈ kv.2, cellProviderOf rt cell = .ok kv.1
  share : ∀ p, 2 * remaining groups p ≤ (cellsLeft groups).length + 1
  behind : ∀ p, last = some p → 2 * remaining groups p ≤ (cellsLeft groups).length

lemma group_eq_filter (hkeys : (groups.map Prod.fst).Nodup)
    (hlabelled : ∀ kv ∈ groups, ∀ cell ∈ kv.2, cellProviderOf rt cell = .ok kv.1) (p : String) :
    (groups.get? p).getD [] = (cellsLeft groups).filter (ofProvider rt p) := by
  induction groups with
  | nil => rfl
  | cons kv groups ih =>
    obtain ⟨hnew, hkeys⟩ := List.nodup_cons.mp hkeys
    obtain ⟨hown, hrest⟩ := List.forall_mem_cons.mp hlabelled
    rw [cellsLeft, List.flatMap_cons, List.filter_append]
    by_cases hp : kv.1 = p
    · have hgroup : kv.2.filter (ofProvider rt p) = kv.2 :=
        List.filter_eq_self.mpr fun cell hcell => ofProvider_iff.mpr (hp ▸ hown cell hcell)
      have hnone : (cellsLeft groups).filter (ofProvider rt p) = [] := by
        rw [List.filter_eq_nil_iff]
        intro cell hcell hprovider
        obtain ⟨kv', hkv', hcell⟩ := List.mem_flatMap.mp hcell
        have hsame := (hrest kv' hkv' cell hcell).symm.trans (ofProvider_iff.mp hprovider)
        cases hsame
        exact hnew (List.mem_map.mpr ⟨kv', hkv', hp.symm⟩)
      rw [hgroup, hnone, List.append_nil]
      simp [Dict.get?, hp]
    · have hnone : kv.2.filter (ofProvider rt p) = [] := by
        rw [List.filter_eq_nil_iff]
        intro cell hcell hprovider
        have hsame := (hown cell hcell).symm.trans (ofProvider_iff.mp hprovider)
        cases hsame
        exact hp rfl
      rw [hnone, List.nil_append, ← ih hkeys hrest]
      simp [Dict.get?, hp]

lemma length_filter_add_le (h : p ≠ q) (cells : List Json) :
    (cells.filter (ofProvider rt p)).length + (cells.filter (ofProvider rt q)).length ≤
      cells.length := by
  induction cells with
  | nil => rfl
  | cons cell cells ih =>
    have hboth : ¬ (ofProvider rt p cell = true ∧ ofProvider rt q cell = true) := by
      rintro ⟨hp, hq⟩
      have hsame := (ofProvider_iff.mp hp).symm.trans (ofProvider_iff.mp hq)
      cases hsame
      exact h rfl
    rw [List.filter_cons, List.filter_cons, List.length_cons]
    split_ifs with hp hq
    · exact absurd ⟨hp, hq⟩ hboth
    · rw [List.length_cons]
      omega
    · rw [List.length_cons]
      omega
    · omega

namespace Balanced

lemma remaining_add_le (h : Balanced rt groups last) (hne : p ≠ q) :
    remaining groups p + remaining groups q ≤ (cellsLeft groups).length := by
  rw [remaining, remaining, group_eq_filter h.keys h.labelled, group_eq_filter h.keys h.labelled]
  exact length_filter_add_le hne _

lemma exists_other (h : Balanced rt groups last) (hleft : cellsLeft groups ≠ []) :
    ∃ p ∈ groups.map Prod.fst, 0 < remaining groups p ∧ some p ≠ last := by
  by_contra hnone
  push Not at hnone
  obtain ⟨cell, hcell⟩ := List.exists_mem_of_ne_nil _ hleft
  obtain ⟨kv, hkv, hmem⟩ := List.mem_flatMap.mp hcell
  have hpos {kv : String × List Json} (hkv : kv ∈ groups) {cell : Json} (hmem : cell ∈ kv.2) :
      0 < remaining groups kv.1 := by
    rw [remaining, group_eq_filter h.keys h.labelled]
    exact List.length_pos_of_mem (List.mem_filter.mpr
      ⟨List.mem_flatMap.mpr ⟨kv, hkv, hmem⟩, ofProvider_iff.mpr (h.labelled kv hkv cell hmem)⟩)
  have hlast := hnone _ (List.mem_map_of_mem hkv) (hpos hkv hmem)
  have hall : (cellsLeft groups).filter (ofProvider rt kv.1) = cellsLeft groups := by
    refine List.filter_eq_self.mpr fun cell' hcell' => ?_
    obtain ⟨kv', hkv', hmem'⟩ := List.mem_flatMap.mp hcell'
    have hlast' := hnone _ (List.mem_map_of_mem hkv') (hpos hkv' hmem')
    rw [ofProvider_iff, h.labelled kv' hkv' cell' hmem', Option.some.inj (hlast'.trans hlast.symm)]
  have hbehind := h.behind kv.1 hlast.symm
  rw [remaining, group_eq_filter h.keys h.labelled, hall] at hbehind
  have := List.length_pos_of_mem hcell
  omega

lemma next (h : Balanced rt groups last) (hnext : nextProvider groups last = some p) :
    some p ≠ last ∧ ∀ q, some q ≠ last → remaining groups q ≤ remaining groups p := by
  have hleft : cellsLeft groups ≠ [] := by
    intro hnil
    have hpos := nextProvider_mem hnext
    rw [remaining, group_eq_filter h.keys h.labelled, hnil] at hpos
    cases hpos
  obtain ⟨other, hkey, hother⟩ := h.exists_other hleft
  simp only [nextProvider] at hnext
  rw [if_neg] at hnext
  · refine ⟨(of_decide_eq_true (List.mem_filter.mp (List.argmax_mem hnext)).2).2, fun q hq => ?_⟩
    rcases Nat.eq_zero_or_pos (remaining groups q) with hzero | hpos
    · omega
    · refine List.le_of_mem_argmax (List.mem_filter.mpr ⟨?_, by simpa using ⟨hpos, hq⟩⟩) hnext
      cases hget : groups.get? q with
      | none => simp [remaining, hget] at hpos
      | some group => exact List.mem_map.mpr ⟨(q, group), Dict.mem_of_get? hget, rfl⟩
  · exact List.ne_nil_of_mem (List.mem_filter.mpr ⟨hkey, by simpa using hother⟩)

lemma step (h : Balanced rt groups last) (hnext : nextProvider groups last = some p) {cell : Json}
    {rest : List Json} (hgroup : groups.get? p = some (cell :: rest)) :
    Balanced rt (groups.set p rest) (some p) := by
  obtain ⟨-, hmost⟩ := h.next hnext
  have hlength : (cellsLeft (groups.set p rest)).length + 1 = (cellsLeft groups).length :=
    (Dict.flatMap_set_tail h.keys hgroup).length_eq
  have hp : remaining groups p = rest.length + 1 := by rw [remaining, hgroup]; rfl
  have hset (q : String) :
      remaining (groups.set p rest) q = if p = q then rest.length else remaining groups q := by
    rw [remaining, Dict.get?_set]
    split_ifs <;> rfl
  have hshare := h.share p
  refine ⟨Dict.nodup_set h.keys, fun kv hkv cell' hcell' => ?_, fun q => ?_, fun q hq => ?_⟩
  · rcases Dict.mem_set.mp hkv with rfl | ⟨hold, -⟩
    · exact h.labelled _ (Dict.mem_of_get? hgroup) cell' (List.mem_cons_of_mem _ hcell')
    · exact h.labelled kv hold cell' hcell'
  · rw [hset]
    split_ifs with hsame
    · omega
    · by_cases hlast : last = some q
      · have := h.behind q hlast
        omega
      · have := hmost q (Ne.symm hlast)
        have := h.remaining_add_le hsame
        omega
  · cases hq
    rw [hset, if_pos rfl]
    omega

lemma rotate {fuel : ℕ} (h : Balanced rt groups last)
    (hfuel : (cellsLeft groups).length ≤ fuel) :
    (∀ p, (rotate fuel groups last).filter (ofProvider rt p) = (groups.get? p).getD []) ∧
      (Control.rotate fuel groups last).IsChain (Apart rt) ∧
      ∀ cell ∈ (Control.rotate fuel groups last).head?, ∀ p, last = some p →
        cellProviderOf rt cell ≠ .ok p := by
  induction fuel generalizing groups last with
  | zero =>
    have hnil := List.length_eq_zero_iff.mp (Nat.le_zero.mp hfuel)
    refine ⟨fun p => ?_, .nil, by simp [Control.rotate]⟩
    rw [group_eq_filter h.keys h.labelled, hnil]
    rfl
  | succ fuel ih =>
    cases hnext : nextProvider groups last with
    | none =>
      rw [Control.rotate, hnext]
      refine ⟨fun p => ?_, .nil, by simp⟩
      rw [group_eq_filter h.keys h.labelled, cellsLeft, nextProvider_eq_none h.keys hnext]
    | some next =>
      have hleft := nextProvider_mem hnext
      rw [remaining] at hleft
      rcases hgroup : groups.get? next with _ | _ | ⟨cell, rest⟩
      · simp [hgroup] at hleft
      · simp [hgroup] at hleft
      · have hlength : (cellsLeft (groups.set next rest)).length + 1 = (cellsLeft groups).length :=
          (Dict.flatMap_set_tail h.keys hgroup).length_eq
        obtain ⟨horder, hchain, hhead⟩ := ih (h.step hnext hgroup) (by omega)
        have hcell : cellProviderOf rt cell = .ok next :=
          h.labelled _ (Dict.mem_of_get? hgroup) cell List.mem_cons_self
        simp only [Control.rotate, hnext, hgroup, Option.getD_some]
        refine ⟨fun p => ?_, List.isChain_cons.mpr ⟨fun b hb hsame => ?_, hchain⟩, ?_⟩
        · rw [List.filter_cons, horder, Dict.get?_set]
          by_cases hp : next = p
          · subst hp
            simp [ofProvider_iff.mpr hcell, hgroup]
          · have hother : ofProvider rt p cell = false := by
              rw [← Bool.not_eq_true, ofProvider_iff, hcell]
              simpa using hp
            simp [hother, hp]
        · exact hhead b hb next rfl (hsame.symm.trans hcell)
        · rintro c ⟨⟩ p rfl hsame
          rw [hcell] at hsame
          cases hsame
          exact (h.next hnext).1 rfl

end Balanced

/-! ### The whole list -/

variable {cells : List Json} {providers : List String}

lemma get?_groupCells (h : cells.mapM (cellProviderOf rt) = .ok providers) (p : String) :
    ((groupCells (providers.zip cells)).get? p).getD [] = cells.filter (ofProvider rt p) := by
  have hgroup := Dict.get?_collect Prod.fst Prod.snd (providers.zip cells) p
  rw [groupCells, hgroup]
  have hpairs := forall₂_of_mapM h
  clear h hgroup
  induction hpairs with
  | nil => rfl
  | @cons cell provider cells providers hcell _ ih =>
    rw [List.zip_cons_cons, List.filter_cons, List.filter_cons, ← ih]
    by_cases hp : provider = p
    · subst hp
      simp [ofProvider_iff.mpr hcell]
    · have hother : ofProvider rt p cell = false := by
        rw [← Bool.not_eq_true, ofProvider_iff, hcell]
        simpa using hp
      simp [hother, hp]

lemma count_providers (h : cells.mapM (cellProviderOf rt) = .ok providers) (p : String) :
    providers.count p = (cells.filter (ofProvider rt p)).length := by
  have hpairs := forall₂_of_mapM h
  clear h
  induction hpairs with
  | nil => rfl
  | @cons cell provider cells providers hcell _ ih =>
    rw [List.count_cons, ih, List.filter_cons, ofProvider, hcell]
    by_cases hp : provider = p <;> simp [hp]

lemma balanced_start (h : cells.mapM (cellProviderOf rt) = .ok providers)
    (hshare : ∀ p, 2 * providers.count p ≤ cells.length + 1) :
    Balanced rt (groupCells (providers.zip cells)) none ∧
      (cellsLeft (groupCells (providers.zip cells))).length = cells.length := by
  have hpairs := forall₂_of_mapM h
  have hlength : (cellsLeft (groupCells (providers.zip cells))).length = cells.length := by
    have hall := (Dict.flatMap_collect Prod.fst Prod.snd (providers.zip cells)).length_eq
    rwa [List.map_snd_zip hpairs.length_eq.le] at hall
  refine ⟨⟨Dict.nodup_accumulate _ _ _, fun kv hkv cell hcell => ?_, fun p => ?_, nofun⟩, hlength⟩
  · have hget : (groupCells (providers.zip cells)).get? kv.1 = some kv.2 :=
      Dict.get?_of_mem hkv fun kv' hkv' hkey =>
        Dict.value_unique (Dict.nodup_accumulate _ _ _) (hkey ▸ hkv' : (kv.1, kv'.2) ∈ _) hkv
    have hgroup := get?_groupCells h kv.1
    rw [hget, Option.getD_some] at hgroup
    rw [hgroup] at hcell
    exact ofProvider_iff.mp (List.mem_filter.mp hcell).2
  · rw [hlength, remaining, get?_groupCells h, ← count_providers h]
    exact hshare p

lemma reinterleaveCells_eq (h : cells.mapM (cellProviderOf rt) = .ok providers) :
    (∃ p, cells.length + 1 < 2 * providers.count p) ∧
        (∃ text, reinterleaveCells rt cells = .error ("ValueError", text)) ∨
      (∀ p, 2 * providers.count p ≤ cells.length + 1) ∧ reinterleaveCells rt cells =
        .ok (rotate cells.length (groupCells (providers.zip cells)) none) := by
  have hlength : providers.length = cells.length := (forall₂_of_mapM h).length_eq.symm
  have hget : ∀ p, (Dict.accumulate id (fun entry (_ : String) => entry.getD 0 + 1) providers).get? p =
      if p ∈ providers then some (providers.count p) else none := Dict.get?_count providers
  have hnodup := Dict.nodup_accumulate id (fun entry (_ : String) => entry.getD 0 + 1) providers
  rw [reinterleaveCells]
  split_ifs with hempty
  · subst hempty
    obtain rfl : providers = [] := List.length_eq_zero_iff.mp hlength
    exact .inr ⟨by simp, rfl⟩
  simp only [h, bind, Except.bind]
  generalize Dict.accumulate id (fun entry (_ : String) => entry.getD 0 + 1) providers = counts at *
  cases hmax : counts.argmax Prod.snd with
  | none =>
    rw [List.argmax_eq_none.mp hmax] at hget
    obtain ⟨p, hp⟩ := List.exists_mem_of_ne_nil providers fun hnil => hempty <| by
      rw [hnil] at hlength
      exact List.length_eq_zero_iff.mp hlength.symm
    simpa [hp, Dict.get?] using hget p
  | some entry =>
    obtain ⟨offender, most⟩ := entry
    have hmost : ∀ p, providers.count p ≤ most := by
      intro p
      by_cases hp : p ∈ providers
      · exact List.le_of_mem_argmax (Dict.mem_of_get? ((hget p).trans (if_pos hp))) hmax
      · rw [List.count_eq_zero.mpr hp]
        exact Nat.zero_le _
    have hoffender : most = providers.count offender := by
      have hmem := List.argmax_mem hmax
      have hfound := Dict.get?_of_mem hmem fun kv hkv hkey =>
        Dict.value_unique hnodup (hkey ▸ hkv : (offender, kv.2) ∈ _) hmem
      rw [hget] at hfound
      split_ifs at hfound
      exact (Option.some.inj hfound).symm
    dsimp only
    split_ifs with hmore
    · exact .inl ⟨⟨offender, hoffender ▸ hmore⟩, _, rfl⟩
    · exact .inr ⟨fun p => by have := hmost p; omega, rfl⟩

lemma cellProviderOf_error {cell : Json} {text : String} :
    cellProviderOf rt cell ≠ .error ("ValueError", text) := by
  rw [cellProviderOf.eq_def]
  split
  · split <;> simp
  all_goals simp

/-- `ValueError` is raised exactly if twice the largest count is more than all cells and one. Else
the cells come in an order that keeps the order of each provider and never has two neighbours of
one provider. -/
theorem reinterleaveCells_balanced (cells : List Json) :
    ((∃ text, reinterleaveCells rt cells = .error ("ValueError", text)) ↔
      ∃ providers, cells.mapM (cellProviderOf rt) = .ok providers ∧
        ∃ p, cells.length + 1 < 2 * providers.count p) ∧
    ∀ providers, cells.mapM (cellProviderOf rt) = .ok providers →
      (∀ p, 2 * providers.count p ≤ cells.length + 1) →
      ∃ order, reinterleaveCells rt cells = .ok order ∧ order.Perm cells ∧
        (∀ p, order.filter (ofProvider rt p) = cells.filter (ofProvider rt p)) ∧
        order.IsChain (Apart rt) := by
  refine ⟨⟨fun ⟨text, herror⟩ => ?_, fun ⟨providers, h, p, hp⟩ => ?_⟩, fun providers h hshare => ?_⟩
  · cases h : cells.mapM (cellProviderOf rt) with
    | error e =>
      exfalso
      rw [reinterleaveCells] at herror
      split_ifs at herror
      · cases herror
      · simp only [h, bind, Except.bind] at herror
        cases herror
        obtain ⟨-, cell, -, -, -, hcell⟩ := mapM_error h
        exact cellProviderOf_error hcell
    | ok providers =>
      rcases reinterleaveCells_eq h with ⟨hmore, -⟩ | ⟨-, hok⟩
      · exact ⟨providers, rfl, hmore⟩
      · rw [hok] at herror
        cases herror
  · rcases reinterleaveCells_eq h with ⟨-, herror⟩ | ⟨hshare, -⟩
    · exact herror
    · have := hshare p
      omega
  · obtain ⟨hbalanced, hlength⟩ := balanced_start h hshare
    rcases reinterleaveCells_eq h with ⟨⟨p, hp⟩, -⟩ | ⟨-, hok⟩
    · have := hshare p
      omega
    · obtain ⟨horder, hchain, -⟩ := hbalanced.rotate hlength.le
      refine ⟨_, hok, reinterleaveCells_perm hok, fun p => ?_, hchain⟩
      rw [horder, get?_groupCells h]

/-- Two cells of one provider and one of another. -/
theorem reinterleaveCells_balanced_three :
    ∃ order, reinterleaveCells storyRuntime
        (["openai/luna", "openai/sol", "google/flash"].map modelCell) = .ok order ∧
      order.Perm (["openai/luna", "openai/sol", "google/flash"].map modelCell) ∧
      (∀ p, order.filter (ofProvider storyRuntime p) =
        (["openai/luna", "openai/sol", "google/flash"].map modelCell).filter
          (ofProvider storyRuntime p)) ∧
      order.IsChain (Apart storyRuntime) := by
  refine (reinterleaveCells_balanced _).2 ["openai", "openai", "google"] (by decide) fun p => ?_
  by_cases hp : p = "openai"
  · subst hp
    decide
  · have hcount : ["openai", "openai", "google"].count p ≤ 1 := by
      simp only [List.count_cons, Ne.symm hp, beq_iff_eq, if_false, List.count_nil]
      split_ifs <;> omega
    simp only [List.map_cons, List.map_nil, List.length_cons, List.length_nil]
    omega

end AgenticDynamics.Control
