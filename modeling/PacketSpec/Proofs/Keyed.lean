import Mathlib.Data.List.Nodup

/-! Lists whose entries are found by a key. -/
namespace PacketSpec

variable {α β κ : Type} [BEq κ] [LawfulBEq κ]

theorem find?_of_nodup {key : α → κ} {items : List α}
    (distinct : (items.map key).Nodup) {item : α} (member : item ∈ items) :
    items.find? (key · == key item) = some item := by
  induction items with
  | nil => cases member
  | cons first rest ih =>
    rw [List.map_cons, List.nodup_cons] at distinct
    rcases List.mem_cons.mp member with rfl | later
    · exact List.find?_cons_of_pos (by simp)
    · have other : key first ≠ key item := fun same =>
        distinct.1 (same ▸ List.mem_map_of_mem later)
      rw [List.find?_cons_of_neg (by simpa using other)]
      exact ih distinct.2 later

/-- Two items that give the same are the same one, where all that is given differs. -/
theorem eq_of_nodup_filterMap {γ : Type} {f : α → Option γ} {items : List α}
    (distinct : (items.filterMap f).Nodup) {one other : α} {c : γ} (first : one ∈ items)
    (second : other ∈ items) (given : f one = some c) (same : f other = some c) : one = other := by
  induction items with
  | nil => cases first
  | cons item rest ih =>
    rw [List.filterMap_cons] at distinct
    rcases List.mem_cons.mp first with rfl | firstLater <;>
      rcases List.mem_cons.mp second with rfl | secondLater
    · rfl
    · rw [given, List.nodup_cons] at distinct
      exact absurd (List.mem_filterMap.mpr ⟨other, secondLater, same⟩) distinct.1
    · rw [same, List.nodup_cons] at distinct
      exact absurd (List.mem_filterMap.mpr ⟨one, firstLater, given⟩) distinct.1
    · apply ih _ firstLater secondLater
      cases gives : f item with
      | none => simpa [gives] using distinct
      | some d => exact (List.nodup_cons.mp (by simpa [gives] using distinct)).2

theorem nodup_concat {items : List α} {item : α} (distinct : items.Nodup)
    (fresh : item ∉ items) : (items ++ [item]).Nodup := by
  rw [← List.concat_eq_append]
  exact List.Nodup.concat fresh distinct

theorem forall_concat {good : α → Prop} {items : List α} {item : α}
    (each : ∀ a ∈ items, good a) (last : good item) : ∀ a ∈ items ++ [item], good a := by
  intro a member
  rcases List.mem_append.mp member with earlier | same
  · exact each a earlier
  · exact List.mem_singleton.mp same ▸ last

theorem mem_of_lookup {entries : List (κ × β)} {key : κ} {value : β}
    (found : entries.lookup key = some value) : (key, value) ∈ entries := by
  obtain ⟨front, back, rfl, -⟩ := List.lookup_eq_some_iff.mp found
  exact List.mem_append_right _ List.mem_cons_self

omit [LawfulBEq κ] in
theorem lookup_of_prefix {entries longer : List (κ × β)} (continued : entries <+: longer) {key : κ}
    {value : β} (found : entries.lookup key = some value) : longer.lookup key = some value := by
  obtain ⟨more, rfl⟩ := continued
  rw [List.lookup_append, found]
  rfl

theorem lookup_of_nodup {entries : List (κ × β)} (distinct : (entries.map Prod.fst).Nodup)
    {key : κ} {value : β} (member : (key, value) ∈ entries) :
    entries.lookup key = some value := by
  induction entries with
  | nil => cases member
  | cons entry rest ih =>
    rw [List.map_cons, List.nodup_cons] at distinct
    rw [List.lookup_cons]
    rcases List.mem_cons.mp member with rfl | later
    · simp
    · have other : (key == entry.1) = false := by
        apply beq_eq_false_iff_ne.mpr
        rintro rfl
        exact distinct.1 (List.mem_map.mpr ⟨_, later, rfl⟩)
      rw [other]
      exact ih distinct.2 later

theorem not_mem_of_lookup_eq_none {entries : List (κ × β)} {key : κ}
    (missing : entries.lookup key = none) : key ∉ entries.map Prod.fst := by
  intro member
  obtain ⟨entry, found, rfl⟩ := List.mem_map.mp member
  have different := List.lookup_eq_none_iff.mp missing entry found
  simp at different

end PacketSpec
