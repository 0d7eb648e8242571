import PacketSpec.Proofs.Builder.Growth

/-! Enumerations are well formed when they enter the model. -/
namespace PacketSpec.Builder

variable {window : Nat} {before after : Context}

/-- A row adds a member whose name and value no earlier member has. -/
theorem buildMember_yields {key id : String} {members extended : List EnumMember}
    {row : MemberRow} (run : Yields (buildMember key members row) before extended after)
    (valid : Enum.WellFormed ⟨key, id, members⟩) :
    after = before ∧ Enum.WellFormed ⟨key, id, extended⟩ := by
  simp only [buildMember, yields_bind, yields_ite, yields_readable, yields_fail] at run
  obtain ⟨name, _, ⟨-, rfl⟩, rest⟩ := run
  obtain ⟨-, _, _, impossible, -⟩ | ⟨-, rest⟩ := rest
  · exact impossible.elim
  obtain ⟨value, _, ⟨-, rfl⟩, rest⟩ := rest
  obtain ⟨-, _, _, impossible, -⟩ | ⟨newName, rest⟩ := rest
  · exact impossible.elim
  simp only [Bool.or_eq_true, beq_iff_eq, List.any_eq_true, not_or, not_exists,
    not_and] at newName
  split at rest
  · exact (yields_fail rest).elim
  · next newValue =>
    obtain ⟨rfl, rfl⟩ := yields_pure.mp rest
    simp only [List.find?_eq_none, beq_iff_eq] at newValue
    refine ⟨rfl, ?_, ?_, ?_⟩
    · rw [List.map_append, List.nodup_append]
      refine ⟨valid.ids, by simp, ?_⟩
      intro id member other same
      obtain ⟨m, found, rfl⟩ := List.mem_map.mp member
      obtain rfl := List.mem_singleton.mp same
      exact newName.2 m found
    · intro member found
      obtain earlier | same := List.mem_append.mp found
      · exact valid.known member earlier
      · obtain rfl := List.mem_singleton.mp same
        exact newName.1
    · rw [List.map_append, List.nodup_append]
      refine ⟨valid.values, by simp, ?_⟩
      intro value member other same
      obtain ⟨m, found, rfl⟩ := List.mem_map.mp member
      obtain rfl := List.mem_singleton.mp same
      exact newValue m found

theorem buildMembers_yields {key : String} (id : String) {rows : List MemberRow}
    {members extended : List EnumMember}
    (run : Yields (rows.foldlM (buildMember key) members) before extended after)
    (valid : Enum.WellFormed ⟨key, id, members⟩) :
    after = before ∧ Enum.WellFormed ⟨key, id, extended⟩ := by
  induction rows generalizing before members with
  | nil =>
    obtain ⟨rfl, rfl⟩ := yields_pure.mp run
    exact ⟨rfl, valid⟩
  | cons row rows ih =>
    rw [List.foldlM_cons, yields_bind] at run
    obtain ⟨next, middle, first, rest⟩ := run
    obtain ⟨rfl, valid⟩ := buildMember_yields first valid
    exact ih rest valid

theorem resolveEnum_builds (document : Document) (key : String) :
    Builds window (resolveEnum document key) fun id model =>
      ∃ e ∈ model.enums, e.id = id ∧ e.WellFormed := by
  intro before id after valid run
  simp only [resolveEnum, yields_bind, yields_get] at run
  obtain ⟨_, _, ⟨rfl, rfl⟩, run⟩ := run
  split at run
  · next e found =>
    obtain ⟨rfl, rfl⟩ := yields_pure.mp run
    have member := List.mem_of_find?_eq_some found
    exact ⟨valid, .refl _, e, member, rfl, valid.model.enums e member⟩
  · simp only [yields_ite, yields_bind, yields_fail, false_and, exists_false, and_false,
      false_or] at run
    replace run := run.2
    split at run
    · exact (yields_fail run).elim
    · simp only [yields_bind, yields_modifyModel, yields_pure] at run
      obtain ⟨members, middle, read, _, _, rfl, rfl, rfl⟩ := run
      obtain ⟨rfl, wellFormed⟩ := buildMembers_yields (Text.camelCase key) read
        ⟨by simp, by simp, by simp⟩
      have grows : middle.model.Extends { middle.model with
          enums := middle.model.enums ++ [⟨key, Text.camelCase key, members⟩] } :=
        ⟨List.prefix_append _ _, List.prefix_refl _, List.Subset.refl _⟩
      refine ⟨⟨valid.model.of_structs_eq grows rfl rfl ?_, valid.built⟩, grows, ?_⟩
      · intro e member
        obtain earlier | same := List.mem_append.mp member
        · exact valid.model.enums e earlier
        · exact List.mem_singleton.mp same ▸ wellFormed
      · exact ⟨_, List.mem_append_right _ (List.mem_singleton_self _), rfl, wellFormed⟩

end PacketSpec.Builder
