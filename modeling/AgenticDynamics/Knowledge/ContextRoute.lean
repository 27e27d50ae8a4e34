import AgenticDynamics.Library.Accumulate
import AgenticDynamics.Knowledge.ScopeFilter

/-!
# The record of a context route

A phase is served evidence by layers. The record of a phase says of every layer of its route what
became of it, and lists the evidence under the layer that its source type belongs to, under the
refused self layer, or as unclassified.
-/

namespace AgenticDynamics.Knowledge.ContextRoute

open Python StableSort

/-! ### Layers -/

def layerTask : String := "L0"
def layerStructure : String := "L1"
def layerHistory : String := "L2"
def layerOutcomes : String := "L3"
def layerSelf : String := "L4"

/-- `LAYERS`. -/
def layerIds : List String := [layerTask, layerStructure, layerHistory, layerOutcomes, layerSelf]

inductive LayerStatus
  | served
  | empty
  | namedAbsent
  | unknown
  | excluded
  deriving DecidableEq

def layerSourceTypes : Dict (List String) :=
  [(layerTask, []),
    (layerStructure, ["code"]),
    (layerHistory, ["story", "review", "ledger_job", "ledger_attempt", "meta_session", "decision",
      "observation", "flag", "finding", "spec"]),
    (layerOutcomes, ["report", "pattern", "fact", "orphan"]),
    (layerSelf, ["belief", "reflection", "wave_verdict"])]

def sourceTypesOf (layer : String) : List String := (layerSourceTypes.get? layer).getD []

/-- The layer of a source type; the empty text if it has none. -/
def layerForSourceType (host : Host) (sourceType : String) : String :=
  let needle := host.lower (strip sourceType)
  if needle = "" then ""
  else (layerIds.find? fun layer => needle ∈ sourceTypesOf layer).getD ""

structure LayerRoute where
  phaseName : String
  phaseKind : String := ""
  role : String := "unknown"
  layers : List String := []
  prohibited : List String := []
  sharedScopes : List String := []
  reason : String := ""

/-- The layers of a route, none if it is not resolved. -/
def resolvedLayers (route : Option LayerRoute) : List String := route.elim [] LayerRoute.layers

def routeResolved (route : Option LayerRoute) : Bool := resolvedLayers route ≠ []

/-- The self layer is refused unless the route resolved it and did not prohibit it. -/
def selfLayerProhibited : Option LayerRoute → Bool
  | none       => true
  | some route => layerSelf ∈ route.prohibited || layerSelf ∉ route.layers

/-! ### What is recorded -/

structure Evidence where
  id : String
  sourceType : String
  deriving DecidableEq

def normalizeEvidence (host : Host) (item : Evidence) : Evidence :=
  { item with sourceType := host.lower (strip item.sourceType) }

/-- What the record reads of a retrieval; a list that is missing is none. -/
structure Attempt where
  selectedEvidence : Option (List Evidence) := none
  legErrors : Dict String := []

/-- What the record reads of an augmentation. -/
structure Outcome where
  selectedEvidence : Option (List Evidence) := none
  fallback : Bool := false
  fallbackMode : String := ""
  fallbackReason : String := ""
  retrievalLegErrors : Option (Dict String) := none

/-- `_served_evidence`: the list of the outcome, else that of the attempt. -/
def servedEvidence (host : Host) (outcome : Option Outcome) (attempt : Option Attempt) :
    List Evidence :=
  match outcome.bind Outcome.selectedEvidence, attempt.bind Attempt.selectedEvidence with
  | some selected, _    => selected.map (normalizeEvidence host)
  | none, some selected => selected.map (normalizeEvidence host)
  | none, none          => []

structure UnclassifiedItem where
  id : String
  sourceType : String
  status : LayerStatus
  reason : String
  deriving DecidableEq

structure Disposition where
  layer : String
  status : LayerStatus
  sourceTypes : List String
  evidenceIds : List String
  reason : String
  deriving DecidableEq

structure ContextRouteRecord where
  schema : String := "context-route/v1"
  phase : String
  phaseKind : String
  role : String
  routeStatus : String
  sharedScopes : List String
  layers : List Disposition
  unclassified : List UnclassifiedItem
  servedCount : ℕ
  fallbackMode : String
  fallbackReason : String
  routingReason : String
  legErrors : Dict String

/-! ### The attribution -/

/-- What the loop over the served items collects. -/
structure Attribution where
  servedByLayer : Dict (List String)
  excludedIds : List String
  unclassified : List UnclassifiedItem

/-- An id is listed once; an item without an id is not listed. -/
def addId (ids : List String) (id : String) : List String :=
  if id ≠ "" ∧ id ∉ ids then ids ++ [id] else ids

def unclassifiedItem (item : Evidence) (reason : String) : UnclassifiedItem where
  id := item.id
  sourceType := if item.sourceType ≠ "" then item.sourceType else "untyped"
  status := .unknown
  reason := reason

def unattributedReason (route : Option LayerRoute) : String :=
  if !routeResolved route then "unroutable request: no layer resolved"
  else "source_type maps to no resolved layer"

def unresolvedWithheldReason : String :=
  "withheld before construction: untyped evidence on an unresolved route"

def attributeItem (host : Host) (route : Option LayerRoute) (s : Attribution) (item : Evidence) :
    Attribution :=
  let layer := layerForSourceType host item.sourceType
  if layer = layerSelf ∧ selfLayerProhibited route then
    { s with excludedIds := addId s.excludedIds item.id }
  else
    match s.servedByLayer.get? layer with
    | some ids =>
      if layer ≠ "" then { s with servedByLayer := s.servedByLayer.set layer (ids ++ [item.id]) }
      else { s with
        unclassified := s.unclassified ++ [unclassifiedItem item (unattributedReason route)] }
    | none => { s with
        unclassified := s.unclassified ++ [unclassifiedItem item (unattributedReason route)] }

def withhold (unclassified : List UnclassifiedItem) (item : Evidence) : List UnclassifiedItem :=
  if item.id ≠ "" ∧ ∃ existing ∈ unclassified, existing.id = item.id then unclassified
  else unclassified ++ [unclassifiedItem item unresolvedWithheldReason]

def normalizeSharedScopes (host : Host) (sharedScopes : Json) (route : Option LayerRoute) :
    List String :=
  let raw : List Json := match sharedScopes with
    | .str s  => [.str s]
    | .arr xs => xs
    | _       => []
  (route.elim [] LayerRoute.sharedScopes).foldl
    (fun scopes scope => if scope ∈ scopes then scopes else scopes ++ [scope])
    (raw.foldl (Retrieval.normalizeItem host) [])

def legReason (legErrors : Dict String) : String :=
  String.intercalate "; " ((sortBy Prod.fst legErrors).map fun kv => kv.1 ++ ": " ++ kv.2)

/-- `_disposition`: the status of a layer of the route, and why. -/
def disposition (route : Option LayerRoute) (attempt : Option Attempt) (outcome : Option Outcome)
    (legErrors : Dict String) (evidenceIds : List String) : LayerStatus × String :=
  if evidenceIds ≠ [] then (.served, "")
  else if attempt.isNone then (.namedAbsent, "no retrieval attempt recorded")
  else if outcome.elim false Outcome.fallback then
    (.namedAbsent, orElse (outcome.map Outcome.fallbackReason) "augmentation_fallback")
  else if legErrors ≠ [] then
    (.namedAbsent, orElse (some (legReason legErrors)) "retrieval_leg_failed")
  else if !routeResolved route then (.unknown, "routing unresolved")
  else (.empty, "retrieval completed with no evidence for this layer")

/-- The reason of the entry for what is unclassified on an unresolved route. -/
def unclassifiedReason (served withheld : ℕ) : String :=
  if served ≠ 0 ∧ withheld ≠ 0 then
    "unroutable request: served evidence carries no layer disposition and evidence was withheld " ++
      "before construction"
  else if withheld ≠ 0 then
    "unroutable request: no evidence was served; the evidence was withheld before construction"
  else "unroutable request: served evidence carries no layer disposition"

/-- The arguments of the builder besides the route, the attempt and the outcome. -/
structure RecordArgs where
  /-- `_phase_identity(phase)`. -/
  phase : String × String
  sharedScopes : Json := .null
  excludedEvidence : List Evidence := []
  withheldEvidence : List Evidence := []

/-- What the loop over the served items starts from: the refused ids, and no evidence for any
layer. -/
def initialAttribution (host : Host) (route : Option LayerRoute) (refused : List Evidence) :
    Attribution where
  servedByLayer := Dict.accumulate id (fun _ _ => []) (resolvedLayers route)
  excludedIds := (refused.map (normalizeEvidence host)).foldl (fun ids item => addId ids item.id) []
  unclassified := []

def attribution (host : Host) (route : Option LayerRoute) (refused items : List Evidence) :
    Attribution :=
  items.foldl (attributeItem host route) (initialAttribution host route refused)

/-- The task layer; the base prompt is preserved. -/
def taskDisposition (outcome : Option Outcome) : Disposition where
  layer := layerTask
  status := if outcome.isSome then .served else .namedAbsent
  sourceTypes := sourceTypesOf layerTask
  evidenceIds := []
  reason := if outcome.isSome then "base prompt preserved" else "no base prompt recorded"

def layerDisposition (route : Option LayerRoute) (attempt : Option Attempt)
    (outcome : Option Outcome) (legErrors : Dict String) (s : Attribution) (layer : String) :
    Disposition :=
  let ids := (s.servedByLayer.get? layer).getD []
  { layer := layer
    status := (disposition route attempt outcome legErrors ids).1
    sourceTypes := sourceTypesOf layer
    evidenceIds := ids
    reason := (disposition route attempt outcome legErrors ids).2 }

/-- The self layer where it is prohibited. -/
def refusedDisposition (s : Attribution) : Disposition where
  layer := layerSelf
  status := .excluded
  sourceTypes := sourceTypesOf layerSelf
  evidenceIds := s.excludedIds
  reason := "prohibited self-layer content: never served to a cell phase"

/-- What is unclassified on an unresolved route. -/
def unattributedDisposition (s : Attribution) (unclassified : List UnclassifiedItem) :
    Disposition where
  layer := "unclassified"
  status := .unknown
  sourceTypes := []
  evidenceIds := unclassified.map UnclassifiedItem.id
  reason := unclassifiedReason s.unclassified.length (unclassified.length - s.unclassified.length)

def dispositions (route : Option LayerRoute) (attempt : Option Attempt) (outcome : Option Outcome)
    (legErrors : Dict String) (s : Attribution) (unclassified : List UnclassifiedItem) :
    List Disposition :=
  taskDisposition outcome ::
    (resolvedLayers route).map (layerDisposition route attempt outcome legErrors s) ++
      ((if selfLayerProhibited route ∧ layerSelf ∉ resolvedLayers route then [refusedDisposition s]
        else []) ++
      if !routeResolved route ∧ unclassified ≠ [] then [unattributedDisposition s unclassified]
      else [])

def buildContextRouteRecord (host : Host) (args : RecordArgs) (route : Option LayerRoute)
    (attempt : Option Attempt) (outcome : Option Outcome) : ContextRouteRecord :=
  let items := servedEvidence host outcome attempt
  let s := attribution host route args.excludedEvidence items
  let unclassified := (args.withheldEvidence.map (normalizeEvidence host)).foldl withhold
    s.unclassified
  let legErrors := match outcome.bind Outcome.retrievalLegErrors with
    | some errors => errors
    | none        => attempt.elim [] Attempt.legErrors
  { phase := orElse (some args.phase.1) (route.elim "" LayerRoute.phaseName)
    phaseKind := orElse (some args.phase.2) (route.elim "" LayerRoute.phaseKind)
    role := route.elim "unknown" LayerRoute.role
    routeStatus := if routeResolved route then "resolved" else "unknown"
    sharedScopes := normalizeSharedScopes host args.sharedScopes route
    layers := dispositions route attempt outcome legErrors s unclassified
    unclassified := unclassified
    servedCount := (s.servedByLayer.map fun kv => kv.2.length).sum
    fallbackMode := orElse (outcome.map Outcome.fallbackMode) "no_rag"
    fallbackReason := outcome.elim "" Outcome.fallbackReason
    routingReason := if !routeResolved route then
        orElse (some (strip (route.elim "" LayerRoute.reason))) "routing unresolved"
      else ""
    legErrors := legErrors }

/-! ### The partition -/

inductive Place
  | layer (id : String)
  | refused
  | unclassified
  deriving DecidableEq

/-- The place of an item: its source type decides, by the layers of the route. -/
def place (host : Host) (route : Option LayerRoute) (item : Evidence) : Place :=
  let layer := layerForSourceType host item.sourceType
  if layer = layerSelf ∧ selfLayerProhibited route then .refused
  else if layer ≠ "" ∧ layer ∈ resolvedLayers route then .layer layer
  else .unclassified

def itemsAt (host : Host) (route : Option LayerRoute) (items : List Evidence) (p : Place) :
    List Evidence :=
  items.filter fun item => place host route item = p

/-- Every item is accounted for where it belongs, and nowhere else. -/
structure Accounted (host : Host) (route : Option LayerRoute) (items : List Evidence)
    (record : ContextRouteRecord) : Prop where
  /-- A layer of the route lists its own items. -/
  layers : ∀ d ∈ record.layers, d.layer ∈ resolvedLayers route →
    d.evidenceIds = (itemsAt host route items (.layer d.layer)).map Evidence.id
  /-- The excluded self layer lists every refused item. -/
  refused : ∀ item ∈ items, place host route item = .refused →
    ∃ d ∈ record.layers, d.layer = layerSelf ∧ d.status = .excluded ∧ item.id ∈ d.evidenceIds
  /-- The unclassified list starts with the items that have no layer of the route; what follows was
  withheld. -/
  unclassified : ∃ withheld, record.unclassified = (itemsAt host route items .unclassified).map
    (fun item => unclassifiedItem item (unattributedReason route)) ++ withheld ∧
      ∀ entry ∈ withheld, entry.reason = unresolvedWithheldReason
  count : record.servedCount = (items.filter fun item =>
    place host route item ≠ .refused ∧ place host route item ≠ .unclassified).length
  prohibited : selfLayerProhibited route → ∀ d ∈ record.layers, d.layer = layerSelf →
    d.status ≠ .served
  disposed : ∀ layer ∈ resolvedLayers route,
    (record.layers.countP fun d => d.layer = layer) = 1

/-- The condition on a route and what it is served. -/
structure Attributable (host : Host) (route : Option LayerRoute) (items : List Evidence) :
    Prop where
  distinct : (resolvedLayers route).Nodup
  retrieved : layerTask ∉ resolvedLayers route
  refused : ∀ item ∈ items, place host route item = .refused →
    item.id ≠ "" ∧ layerSelf ∉ resolvedLayers route

section Attribution

variable {host : Host} {route : Option LayerRoute} {items refused : List Evidence}
  {item : Evidence} {s : Attribution} {layer : String}

lemma place_eq_layer (h : place host route item = .layer layer) :
    layerForSourceType host item.sourceType = layer ∧ layer ≠ "" ∧
      layer ∈ resolvedLayers route ∧ ¬ (layer = layerSelf ∧ selfLayerProhibited route) := by
  simp only [place] at h
  split_ifs at h with hself hlayer
  cases h
  exact ⟨rfl, hlayer.1, hlayer.2, hself⟩

lemma place_eq_refused (h : place host route item = .refused) :
    layerForSourceType host item.sourceType = layerSelf ∧ selfLayerProhibited route := by
  simp only [place] at h
  split_ifs at h with hself
  exact hself

lemma place_eq_unclassified (h : place host route item = .unclassified) :
    ¬ (layerForSourceType host item.sourceType = layerSelf ∧ selfLayerProhibited route) ∧
      ¬ (layerForSourceType host item.sourceType ≠ "" ∧
        layerForSourceType host item.sourceType ∈ resolvedLayers route) := by
  simp only [place] at h
  split_ifs at h with hself hlayer
  exact ⟨hself, hlayer⟩

lemma layerForSourceType_ne_task (sourceType : String) :
    layerForSourceType host sourceType ≠ layerTask := by
  rw [layerForSourceType]
  split_ifs
  · decide
  · intro h
    cases hfind : layerIds.find? fun layer =>
        host.lower (strip sourceType) ∈ sourceTypesOf layer with
    | none =>
      rw [hfind] at h
      exact absurd h (by decide)
    | some layer =>
      rw [hfind, Option.getD_some] at h
      have hmem := List.find?_some hfind
      rw [h] at hmem
      simp [sourceTypesOf, layerSourceTypes, Dict.get?] at hmem

lemma mem_addId {ids : List String} {id id' : String} :
    id' ∈ addId ids id ↔ id' ∈ ids ∨ id' = id ∧ id ≠ "" := by
  rw [addId]
  split_ifs with h
  · rw [List.mem_append, List.mem_singleton, and_iff_left h.1]
  · constructor
    · exact .inl
    · rintro (hid | ⟨rfl, hne⟩)
      · exact hid
      · by_contra hnew
        exact h ⟨hne, hnew⟩

/-- What the loop has collected after some items. -/
structure Collected (host : Host) (route : Option LayerRoute) (items : List Evidence)
    (s : Attribution) : Prop where
  nodup : (s.servedByLayer.map Prod.fst).Nodup
  served : ∀ layer, s.servedByLayer.get? layer = if layer ∈ resolvedLayers route then
    some ((itemsAt host route items (.layer layer)).map Evidence.id) else none
  named : ∀ id ∈ s.excludedIds, id ≠ ""
  excluded : ∀ item ∈ items, place host route item = .refused → item.id ≠ "" →
    item.id ∈ s.excludedIds
  unclassified : s.unclassified = (itemsAt host route items .unclassified).map fun item =>
    unclassifiedItem item (unattributedReason route)
  count : (s.servedByLayer.flatMap Prod.snd).length = (items.filter fun item =>
    place host route item ≠ .refused ∧ place host route item ≠ .unclassified).length

lemma itemsAt_concat_of_eq {p : Place} (h : place host route item = p) :
    itemsAt host route (items ++ [item]) p = itemsAt host route items p ++ [item] := by
  simp [itemsAt, List.filter_append, h]

lemma itemsAt_concat_of_ne {p : Place} (h : place host route item ≠ p) :
    itemsAt host route (items ++ [item]) p = itemsAt host route items p := by
  simp [itemsAt, List.filter_append, h]

lemma get?_emptied (l : List String) (layer : String) :
    Dict.get? layer (Dict.accumulate id (fun _ _ => ([] : List String)) l) =
      if layer ∈ l then some [] else none := by
  induction l using List.reverseRecOn with
  | nil => rfl
  | append_singleton l a ih =>
    rw [Dict.accumulate_concat, Dict.get?_set, ih]
    by_cases ha : a = layer
    · simp [ha]
    · simp [ha, Ne.symm ha]

lemma named_addId {ids : List String} (items : List Evidence) (h : ∀ id ∈ ids, id ≠ "") :
    ∀ id ∈ items.foldl (fun ids item => addId ids item.id) ids, id ≠ "" := by
  induction items generalizing ids with
  | nil => exact h
  | cons item items ih =>
    refine ih fun id hid => ?_
    rcases mem_addId.mp hid with hid | ⟨rfl, hne⟩
    · exact h id hid
    · exact hne

lemma collected_initial : Collected host route [] (initialAttribution host route refused) where
  nodup := Dict.nodup_accumulate id (fun _ _ => []) (resolvedLayers route)
  served := get?_emptied (resolvedLayers route)
  named := named_addId _ (by simp)
  excluded := by simp
  unclassified := rfl
  count := by
    have hempty : ∀ kv ∈ (initialAttribution host route refused).servedByLayer, kv.2 = [] := by
      intro kv hkv
      have hnodup := Dict.nodup_accumulate id (fun _ _ => ([] : List String)) (resolvedLayers route)
      have hentry := Dict.get?_of_mem hkv fun kv' hkv' hk =>
        Dict.value_unique hnodup (v := kv'.2) (hk ▸ hkv') hkv
      rw [initialAttribution, get?_emptied] at hentry
      split_ifs at hentry
      exact (Option.some.inj hentry).symm
    rw [List.flatMap_eq_nil_iff.mpr hempty]
    rfl

lemma Collected.step (h : Collected host route items s) :
    Collected host route (items ++ [item]) (attributeItem host route s item) := by
  have hexcluded : ∀ s' : Attribution, s'.excludedIds = s.excludedIds →
      place host route item ≠ .refused → ∀ item' ∈ items ++ [item],
        place host route item' = .refused → item'.id ≠ "" → item'.id ∈ s'.excludedIds := by
    intro s' hs' hplace item' hitem' hrefused hid
    rcases List.mem_append.mp hitem' with hold | hnew
    · exact hs' ▸ h.excluded item' hold hrefused hid
    · rw [List.mem_singleton.mp hnew] at hrefused
      exact absurd hrefused hplace
  cases hplace : place host route item with
  | refused =>
    have heq : attributeItem host route s item =
        { s with excludedIds := addId s.excludedIds item.id } := by
      rw [attributeItem]
      exact if_pos (place_eq_refused hplace)
    rw [heq]
    refine ⟨h.nodup, fun layer => ?_, fun id hid => ?_, fun item' hitem' hrefused hid => ?_, ?_, ?_⟩
    · rw [itemsAt_concat_of_ne (by simp [hplace])]
      exact h.served layer
    · rcases mem_addId.mp hid with hid | ⟨rfl, hne⟩
      · exact h.named id hid
      · exact hne
    · refine mem_addId.mpr ?_
      rcases List.mem_append.mp hitem' with hold | hnew
      · exact .inl (h.excluded item' hold hrefused hid)
      · rw [List.mem_singleton.mp hnew] at hid ⊢
        exact .inr ⟨rfl, hid⟩
    · rw [itemsAt_concat_of_ne (by simp [hplace])]
      exact h.unclassified
    · simpa [List.filter_append, hplace] using h.count
  | layer layer =>
    obtain ⟨hfor, hne, hmem, hself⟩ := place_eq_layer hplace
    have hids := h.served layer
    rw [if_pos hmem] at hids
    have heq : attributeItem host route s item = { s with
        servedByLayer := s.servedByLayer.set layer
          ((itemsAt host route items (.layer layer)).map Evidence.id ++ [item.id]) } := by
      simp only [attributeItem, hfor, hids]
      rw [if_neg hself, if_pos hne]
    rw [heq]
    refine ⟨?_, fun layer' => ?_, h.named, hexcluded _ rfl (by simp [hplace]), ?_, ?_⟩
    · have hkey : layer ∈ s.servedByLayer.map Prod.fst :=
        List.mem_map_of_mem (Dict.mem_of_get? hids)
      rw [Dict.keys_set, if_pos hkey]
      exact h.nodup
    · rw [Dict.get?_set]
      by_cases hl : layer = layer'
      · subst hl
        rw [itemsAt_concat_of_eq hplace, if_pos rfl, if_pos hmem, List.map_append]
        rfl
      · rw [itemsAt_concat_of_ne (by simpa [hplace] using hl), if_neg hl]
        exact h.served layer'
    · rw [itemsAt_concat_of_ne (by simp [hplace])]
      exact h.unclassified
    · have hperm := Dict.flatMap_set_append (k := layer) (a := item.id) h.nodup
      rw [hids, Option.getD_some] at hperm
      rw [hperm.length_eq, List.length_append, h.count]
      simp [List.filter_append, hplace]
  | unclassified =>
    obtain ⟨hself, hlayer⟩ := place_eq_unclassified hplace
    have heq : attributeItem host route s item = { s with
        unclassified := s.unclassified ++ [unclassifiedItem item (unattributedReason route)] } := by
      simp only [attributeItem]
      rw [if_neg hself]
      cases hget : s.servedByLayer.get? (layerForSourceType host item.sourceType) with
      | none => rfl
      | some ids =>
        have hmem : layerForSourceType host item.sourceType ∈ resolvedLayers route := by
          by_contra hnew
          rw [h.served, if_neg hnew] at hget
          cases hget
        exact if_neg fun hne => hlayer ⟨hne, hmem⟩
    rw [heq]
    refine ⟨h.nodup, fun layer => ?_, h.named, hexcluded _ rfl (by simp [hplace]), ?_, ?_⟩
    · rw [itemsAt_concat_of_ne (by simp [hplace])]
      exact h.served layer
    · rw [itemsAt_concat_of_eq hplace, List.map_append, h.unclassified]
      rfl
    · simpa [List.filter_append, hplace] using h.count

lemma collected_attribution :
    Collected host route items (attribution host route refused items) := by
  induction items using List.reverseRecOn with
  | nil => exact collected_initial
  | append_singleton items item ih =>
    rw [attribution, List.foldl_append]
    exact ih.step

end Attribution

section Record

variable {host : Host} {args : RecordArgs} {route : Option LayerRoute} {attempt : Option Attempt}
  {outcome : Option Outcome} {legErrors : Dict String} {s : Attribution} {items : List Evidence}
  {unclassified : List UnclassifiedItem} {d : Disposition} {layer : String}

lemma mem_dispositions :
    d ∈ dispositions route attempt outcome legErrors s unclassified ↔
      d = taskDisposition outcome ∨
      (∃ layer ∈ resolvedLayers route,
        layerDisposition route attempt outcome legErrors s layer = d) ∨
      (selfLayerProhibited route ∧ layerSelf ∉ resolvedLayers route ∧ d = refusedDisposition s) ∨
      resolvedLayers route = [] ∧ unclassified ≠ [] ∧
        d = unattributedDisposition s unclassified := by
  have hite : ∀ (p : Prop) [Decidable p] (x : Disposition),
      d ∈ (if p then [x] else []) ↔ p ∧ d = x := by
    intro p _ x
    split_ifs with hp <;> simp [hp]
  simp only [dispositions, List.cons_append, List.mem_cons, List.mem_append, List.mem_map, hite,
    and_assoc, routeResolved, Bool.not_eq_true', decide_eq_false_iff_not, not_not]

lemma disposition_status (ids : List String) :
    (disposition route attempt outcome legErrors ids).1 ≠ .excluded ∧
      (ids = [] → (disposition route attempt outcome legErrors ids).1 ≠ .served) := by
  rw [disposition]
  split_ifs <;> simp_all

lemma foldl_withhold (withheld : List Evidence) (unclassified : List UnclassifiedItem) :
    ∃ more, withheld.foldl withhold unclassified = unclassified ++ more ∧
      ∀ entry ∈ more, entry.reason = unresolvedWithheldReason := by
  induction withheld generalizing unclassified with
  | nil => exact ⟨[], (List.append_nil _).symm, by simp⟩
  | cons item withheld ih =>
    obtain ⟨more, hmore, hreason⟩ := ih (withhold unclassified item)
    rw [List.foldl_cons, hmore, withhold]
    split_ifs
    · exact ⟨more, rfl, hreason⟩
    · refine ⟨_ :: more, List.append_assoc .., ?_⟩
      exact List.forall_mem_cons.mpr ⟨rfl, hreason⟩

lemma countP_dispositions (hlayer : layer ∈ resolvedLayers route) :
    (dispositions route attempt outcome legErrors s unclassified).countP
      (fun d => d.layer = layer) =
        (resolvedLayers route).count layer + if layerTask = layer then 1 else 0 := by
  have hresolved : routeResolved route = true := by
    simpa [routeResolved] using List.ne_nil_of_mem hlayer
  have hrefused : (if selfLayerProhibited route ∧ layerSelf ∉ resolvedLayers route then
      [refusedDisposition s] else []).countP (fun d => d.layer = layer) = 0 := by
    refine List.countP_eq_zero.mpr fun d hd => ?_
    split_ifs at hd with hself
    · rw [List.mem_singleton.mp hd, decide_eq_true_iff]
      exact fun heq : layerSelf = layer => hself.2 (heq ▸ hlayer)
    · cases hd
  have hown : ((resolvedLayers route).map
      (layerDisposition route attempt outcome legErrors s)).countP (fun d => d.layer = layer) =
        (resolvedLayers route).count layer := by
    rw [List.countP_map, List.count]
    refine List.countP_congr fun l _ => ?_
    rw [Function.comp_apply, layerDisposition, decide_eq_true_iff, beq_iff_eq]
  rw [dispositions, List.cons_append, List.countP_cons, List.countP_append, List.countP_append,
    hown, hrefused, if_neg (by simp [hresolved]), taskDisposition, List.countP_nil]
  simp only [decide_eq_true_iff, add_zero]

section Accounts

variable (hs : Collected host route items s)
include hs

lemma layers_of_collected (hd : d ∈ dispositions route attempt outcome legErrors s unclassified)
    (hlayer : d.layer ∈ resolvedLayers route) :
    d.evidenceIds = (itemsAt host route items (.layer d.layer)).map Evidence.id := by
  rcases mem_dispositions.mp hd with rfl | ⟨layer, hmem, rfl⟩ | ⟨-, hself, rfl⟩ | ⟨hnone, -, rfl⟩
  · have htask : itemsAt host route items (.layer layerTask) = [] :=
      List.filter_eq_nil_iff.mpr fun item _ => by
        simpa using fun h => layerForSourceType_ne_task _ (place_eq_layer h).1
    rw [taskDisposition, htask]
    rfl
  · rw [layerDisposition, hs.served, if_pos hmem, Option.getD_some]
  · exact absurd hlayer hself
  · rw [hnone] at hlayer
    cases hlayer

lemma refused_of_collected {item : Evidence} (hitem : item ∈ items)
    (hplace : place host route item = .refused) :
    (∃ d ∈ dispositions route attempt outcome legErrors s unclassified,
      d.layer = layerSelf ∧ d.status = .excluded ∧ item.id ∈ d.evidenceIds) ↔
        item.id ≠ "" ∧ layerSelf ∉ resolvedLayers route := by
  constructor
  · rintro ⟨d, hd, hlayer, hstatus, hid⟩
    rcases mem_dispositions.mp hd with rfl | ⟨layer, -, rfl⟩ | ⟨-, hself, rfl⟩ | ⟨-, -, rfl⟩
    · exact absurd hlayer (by decide : layerTask ≠ layerSelf)
    · exact absurd hstatus (disposition_status _).1
    · exact ⟨hs.named _ hid, hself⟩
    · exact absurd hlayer (by decide : "unclassified" ≠ layerSelf)
  · rintro ⟨hid, hself⟩
    refine ⟨refusedDisposition s, mem_dispositions.mpr ?_, rfl, rfl, ?_⟩
    · exact .inr (.inr (.inl ⟨(place_eq_refused hplace).2, hself, rfl⟩))
    · exact hs.excluded item hitem hplace hid

lemma prohibited_of_collected (hprohibited : selfLayerProhibited route)
    (hd : d ∈ dispositions route attempt outcome legErrors s unclassified)
    (hlayer : d.layer = layerSelf) : d.status ≠ .served := by
  rcases mem_dispositions.mp hd with rfl | ⟨layer, hmem, rfl⟩ | ⟨-, -, rfl⟩ | ⟨-, -, rfl⟩
  · exact absurd hlayer (by decide : layerTask ≠ layerSelf)
  · have hnone : itemsAt host route items (.layer layer) = [] := by
      refine List.filter_eq_nil_iff.mpr fun item _ => ?_
      rw [decide_eq_true_iff]
      exact fun h => (place_eq_layer h).2.2.2 ⟨hlayer, hprohibited⟩
    refine (disposition_status _).2 ?_
    rw [hs.served, if_pos hmem, hnone]
    rfl
  · exact LayerStatus.noConfusion
  · exact LayerStatus.noConfusion

end Accounts

lemma disposed_iff : (∀ layer ∈ resolvedLayers route,
    (dispositions route attempt outcome legErrors s unclassified).countP
      (fun d => d.layer = layer) = 1) ↔
        (resolvedLayers route).Nodup ∧ layerTask ∉ resolvedLayers route := by
  constructor
  · intro h
    refine ⟨List.nodup_iff_count_le_one.mpr fun layer => ?_, fun htask => ?_⟩
    · by_cases hlayer : layer ∈ resolvedLayers route
      · have hcount := h layer hlayer
        rw [countP_dispositions hlayer] at hcount
        omega
      · rw [List.count_eq_zero.mpr hlayer]
        exact zero_le_one
    · have hcount := h layerTask htask
      have hpos := List.count_pos_iff.mpr htask
      rw [countP_dispositions htask, if_pos rfl] at hcount
      omega
  · rintro ⟨hnodup, htask⟩ layer hlayer
    have hne : layerTask ≠ layer := fun heq => htask (heq ▸ hlayer)
    rw [countP_dispositions hlayer, List.count_eq_one_of_mem hnodup hlayer, if_neg hne]

/-- Every route, attempt and outcome: the record accounts for every served item where it belongs
exactly if the route names no layer twice and not the task layer, and no item of the self layer is
refused without an id, or while the route names that layer. -/
theorem accounted_iff : Accounted host route (servedEvidence host outcome attempt)
    (buildContextRouteRecord host args route attempt outcome) ↔
      Attributable host route (servedEvidence host outcome attempt) := by
  have hs : Collected host route (servedEvidence host outcome attempt) (attribution host route
      args.excludedEvidence (servedEvidence host outcome attempt)) := collected_attribution
  obtain ⟨withheld, hwithheld, hreason⟩ := foldl_withhold
    (args.withheldEvidence.map (normalizeEvidence host)) (attribution host route
      args.excludedEvidence (servedEvidence host outcome attempt)).unclassified
  constructor
  · intro h
    obtain ⟨hnodup, htask⟩ := disposed_iff.mp h.disposed
    exact ⟨hnodup, htask, fun item hitem hplace =>
      (refused_of_collected hs hitem hplace).mp (h.refused item hitem hplace)⟩
  · intro h
    refine ⟨fun d hd => layers_of_collected hs hd, fun item hitem hplace => ?_, ?_, ?_,
      fun hprohibited d hd => prohibited_of_collected hs hprohibited hd,
      disposed_iff.mpr ⟨h.distinct, h.retrieved⟩⟩
    · exact (refused_of_collected hs hitem hplace).mpr (h.refused item hitem hplace)
    · refine ⟨withheld, ?_, hreason⟩
      rw [← hs.unclassified]
      exact hwithheld
    · rw [← hs.count, List.length_flatMap]
      rfl

end Record

/-! ### Evidence that is lost -/

def plainHost : Host where
  loads _ := .error ("JSONDecodeError", "")
  repr _ := ""
  upper := id
  lower := id
  sha256 := id
  dumps _ := ""
  fromisoformat _ := none

/-- A route that names the self layer and prohibits it. -/
def selfRoute : LayerRoute where
  phaseName := "execute"
  layers := [layerHistory, layerSelf]
  prohibited := [layerSelf]

def servedBelief : Outcome where
  selectedEvidence := some [⟨"k-belief", "belief"⟩]

/-- The belief is refused, and no disposition says so. -/
theorem refused_belief_lost : ¬ Accounted plainHost (some selfRoute)
    (servedEvidence plainHost (some servedBelief) (some {}))
    (buildContextRouteRecord plainHost { phase := ("execute", "agent") } (some selfRoute)
      (some {}) (some servedBelief)) := by
  intro h
  obtain ⟨d, hd, hlayer, hstatus, -⟩ := h.refused ⟨"k-belief", "belief"⟩ (by decide +kernel)
    (by decide +kernel)
  have hnone : ∀ d ∈ (buildContextRouteRecord plainHost { phase := ("execute", "agent") }
      (some selfRoute) (some {}) (some servedBelief)).layers, d.status ≠ .excluded := by
    decide +kernel
  exact hnone d hd hstatus

end AgenticDynamics.Knowledge.ContextRoute
