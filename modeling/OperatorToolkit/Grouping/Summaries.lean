import OperatorToolkit.Grouping.FirstOccurrences
import OperatorToolkit.Grouping.OrderedMap

/-!
# One summary for each key

What an ordered map has collected from a list, read back in order: for each key, in the order of
first occurrence, a summary of the items that have it. `List.eraseDups` is the order of first
occurrence. If an item that summarises a group can stand for the group, then a list may be replaced
by its summaries at any time, and more items be added after them, without a change to the result.
-/

namespace OperatorToolkit.Grouping

/-! ## Summaries -/

section Summaries

variable {κ ε ω : Type} [DecidableEq κ]

theorem filter_key_eq_nil_iff {key : ε → κ} {items : List ε} {k : κ} :
    items.filter (key · = k) = [] ↔ k ∉ items.map key := by
  rw [List.filter_eq_nil_iff, List.mem_map, not_exists]
  simp

/-- The summaries of the groups of one key, in the order in which the keys occur first. -/
def summaries (key : ε → κ) (summary : List ε → Option ω) (items : List ε) : List ω :=
  (items.map key).eraseDups.filterMap fun k ↦ summary (items.filter (key · = k))

theorem summaries_congr {key : ε → κ} {summary : List ε → Option ω} {items items' : List ε}
    (hkeys : (items.map key).eraseDups = (items'.map key).eraseDups)
    (hgroups : ∀ k, summary (items.filter (key · = k)) = summary (items'.filter (key · = k))) :
    summaries key summary items = summaries key summary items' := by
  rw [summaries, summaries, hkeys]
  congr 1
  funext k
  exact hgroups k

theorem map_summaries {ω' : Type} (key : ε → κ) (summary : List ε → Option ω) (f : ω → ω')
    (items : List ε) :
    (summaries key summary items).map f = summaries key (fun group ↦ (summary group).map f) items :=
  List.map_filterMap

/-- Keys that are told apart in another form may be used in that form. -/
theorem summaries_of_injOn {κ' : Type} [DecidableEq κ'] {key : ε → κ} {f : κ → κ'}
    {items : List ε}
    (hinj : ∀ x ∈ items, ∀ y ∈ items, f (key x) = f (key y) → key x = key y)
    (summary : List ε → Option ω) :
    summaries (fun item ↦ f (key item)) summary items = summaries key summary items := by
  have hkeys : (items.map fun item ↦ f (key item)).eraseDups =
      (items.map key).eraseDups.map f := by
    have hmap : (items.map fun item ↦ f (key item)) = (items.map key).map f := by
      rw [List.map_map]
      rfl
    rw [hmap]
    apply eraseDups_map_of_injOn
    intro k hk k' hk'
    obtain ⟨x, hx, rfl⟩ := List.mem_map.mp hk
    obtain ⟨y, hy, rfl⟩ := List.mem_map.mp hk'
    exact hinj x hx y hy
  rw [summaries, hkeys, List.filterMap_map]
  apply List.filterMap_congr
  intro k hk
  obtain ⟨x, hx, rfl⟩ := List.mem_map.mp (List.mem_eraseDups.mp hk)
  have hgroup : (items.filter fun item ↦ f (key item) = f (key x)) =
      items.filter (key · = key x) := by
    apply List.filter_congr
    intro y hy
    rw [decide_eq_decide]
    exact ⟨hinj y hy x hx, congrArg f⟩
  exact congrArg summary hgroup

theorem order_collect (key : ε → κ) (merge : ε → Option ω → ω) (items : List ε) :
    (OrderedMap.collect key merge items).order = (items.map key).eraseDups := by
  induction items using List.reverseRecOn with
  | nil => rfl
  | append_singleton items item ih =>
    have hstored : ((OrderedMap.collect key merge items).lookup (key item)).isSome ↔
        key item ∈ items.map key := by
      rw [← OrderedMap.mem_order_iff, ih, List.mem_eraseDups]
    rw [OrderedMap.collect_concat, List.map_append, List.map_singleton, eraseDups_concat, ← ih]
    simp only [OrderedMap.upsert, hstored]

theorem values_collect (key : ε → κ) (merge : ε → Option ω → ω) (items : List ε) :
    (OrderedMap.collect key merge items).values =
      summaries key (List.foldl (fun old item ↦ some (merge item old)) none) items := by
  rw [OrderedMap.values, order_collect, summaries]
  congr 1
  funext k
  exact OrderedMap.lookup_collect key merge items k

/-! ## Representatives -/

/-- Every non-empty group of one key is represented by an item of that key. -/
structure Represents (key : ε → κ) (represent : List ε → Option ε) : Prop where
  nil : represent [] = none
  key_eq : ∀ k group, group ≠ [] → (∀ item ∈ group, key item = k) →
    ∃ item, represent group = some item ∧ key item = k

omit [DecidableEq κ] in
/-- The last item of a group represents it. -/
theorem represents_getLast? (key : ε → κ) : Represents key List.getLast? where
  nil := rfl
  key_eq _ _ hgroup hkeys :=
    ⟨_, List.getLast?_eq_some_getLast hgroup, hkeys _ (List.getLast_mem hgroup)⟩

variable {key : ε → κ} {represent : List ε → Option ε}

theorem Represents.exists_of_mem (h : Represents key represent) {items : List ε} {k : κ}
    (hk : k ∈ items.map key) :
    ∃ item, represent (items.filter (key · = k)) = some item ∧ key item = k := by
  apply h.key_eq k
  · exact fun hempty ↦ filter_key_eq_nil_iff.mp hempty hk
  · intro item' hitem'
    simpa using (List.mem_filter.mp hitem').2

/-- The representatives have the keys of the items, each of them once. -/
theorem map_key_summaries (h : Represents key represent) (items : List ε) :
    (summaries key represent items).map key = (items.map key).eraseDups := by
  have hkeys : ∀ k ∈ (items.map key).eraseDups,
      (represent (items.filter (key · = k))).map key = some k := by
    intro k hk
    obtain ⟨item, hitem, hkey⟩ := h.exists_of_mem (List.mem_eraseDups.mp hk)
    rw [hitem, Option.map_some, hkey]
  calc (summaries key represent items).map key
      = (items.map key).eraseDups.filterMap fun k ↦
          (represent (items.filter (key · = k))).map key := List.map_filterMap
    _ = (items.map key).eraseDups.filterMap some := List.filterMap_congr hkeys
    _ = (items.map key).eraseDups := List.filterMap_some

theorem filter_filterMap_key {keys : List κ} (hnodup : keys.Nodup) {f : κ → Option ε}
    (hf : ∀ k ∈ keys, ∀ item, f k = some item → key item = k) (k : κ) :
    (keys.filterMap f).filter (key · = k) = if k ∈ keys then (f k).toList else [] := by
  induction keys with
  | nil => rfl
  | cons k' keys ih =>
    obtain ⟨hk', hkeys⟩ := List.nodup_cons.mp hnodup
    have hrest := ih hkeys fun k hk ↦ hf k (List.mem_cons_of_mem _ hk)
    cases hitem : f k' with
    | none =>
      rw [List.filterMap_cons_none hitem, hrest]
      by_cases hk : k = k'
      · subst hk
        simp [hk', hitem]
      · simp [hk]
    | some item =>
      have hkey := hf k' List.mem_cons_self item hitem
      rw [List.filterMap_cons_some hitem, List.filter_cons, hrest, hkey]
      by_cases hk : k' = k
      · subst hk
        simp [hk', hitem]
      · simp [hk, Ne.symm hk]

/-- The representatives of one key: one if there are items of that key. -/
theorem filter_summaries (h : Represents key represent) (items : List ε) (k : κ) :
    (summaries key represent items).filter (key · = k) =
      (represent (items.filter (key · = k))).toList := by
  rw [summaries, filter_filterMap_key (nodup_eraseDups _) ?_ k]
  · split
    next => rfl
    next hk =>
      rw [List.mem_eraseDups] at hk
      rw [filter_key_eq_nil_iff.mpr hk, h.nil]
      rfl
  · intro k' hk' item hitem
    obtain ⟨item', hitem', hkey⟩ := h.exists_of_mem (List.mem_eraseDups.mp hk')
    obtain rfl : item' = item := Option.some.inj (hitem'.symm.trans hitem)
    exact hkey

/-- **Summaries may be taken early.** If the representative of a group can stand for it in a
summary, then representing a list and adding to it afterwards summarises as the whole list. -/
theorem summaries_append_left (h : Represents key represent) {summary : List ε → Option ω}
    (hstands : ∀ group item rest, represent group = some item →
      summary (item :: rest) = summary (group ++ rest)) (xs ys : List ε) :
    summaries key summary (summaries key represent xs ++ ys) =
      summaries key summary (xs ++ ys) := by
  have hkeys : ((summaries key represent xs ++ ys).map key).eraseDups =
      ((xs ++ ys).map key).eraseDups := by
    rw [List.map_append, List.map_append, map_key_summaries h, eraseDups_append_left]
  have hgroups (k : κ) : summary ((summaries key represent xs ++ ys).filter (key · = k)) =
      summary ((xs ++ ys).filter (key · = k)) := by
    rw [List.filter_append, List.filter_append, filter_summaries h]
    cases hrepresent : represent (xs.filter (key · = k)) with
    | some item => exact hstands _ item _ hrepresent
    | none =>
      have hempty : xs.filter (key · = k) = [] := by
        by_contra hne
        obtain ⟨item, hitem, -⟩ := h.key_eq k _ hne fun item' hitem' ↦ by
          simpa using (List.mem_filter.mp hitem').2
        rw [hrepresent] at hitem
        cases hitem
      rw [hempty]
      rfl
  exact summaries_congr hkeys hgroups

end Summaries

end OperatorToolkit.Grouping
