import PacketSpec.Proofs.Builder.Rows

/-! Building a table, and the tables nested in it, adds well formed structures to the model. -/
namespace PacketSpec.Builder

variable {window : Nat} {before after : Context}

/-- Two windows that are filled alike, whatever they hold. -/
structure Alike {σ τ : Type} (window : BitWindow σ) (other : BitWindow τ) : Prop where
  capacity : window.capacity = other.capacity
  used : window.used = other.used
  empty : window.isEmpty = other.isEmpty

/-- Windows that are filled alike close their chunks at the same fields. -/
theorem Alike.push {σ τ : Type} {narrow filled : BitWindow σ} {other : BitWindow τ}
    (alike : Alike narrow other) {symbol : σ} {width : Nat} {closed : Option (Chunk σ)}
    (pushed : narrow.push symbol width = .ok (.ok closed, filled)) (field : τ) :
    ∃ result next, other.push field width = .ok (.ok result, next) ∧ Alike filled next := by
  simp only [BitWindow.push, bind_eq_ok, Size.add_eq_ok] at pushed
  obtain ⟨_, ⟨rfl, small⟩, pushed⟩ := pushed
  rw [alike.used] at small
  rw [alike.used, alike.capacity] at pushed
  have added : Size.add other.used width = .ok (other.used + width) :=
    Size.add_eq_ok.mpr ⟨rfl, small⟩
  simp only [BitWindow.push, added, bind, Except.bind]
  split at pushed
  · cases pushed
  · next room =>
    rw [if_neg room]
    split at pushed
    · next closes =>
      cases pushed
      rw [if_pos closes]
      exact ⟨_, _, rfl, rfl, rfl, rfl⟩
    · next opened =>
      cases pushed
      rw [if_neg opened]
      exact ⟨_, _, rfl, rfl, rfl, by cases narrow.pending <;> cases other.pending <;> rfl⟩

/-- A structure whose narrow fields pass the check has a layout. -/
theorem checkWindow_yields {key : String} {fields : List Field} {index : Nat}
    {narrow : BitWindow Nat} {other : BitWindow Field} {u : Unit} (alike : Alike narrow other)
    (run : Yields (checkWindow key index narrow fields) before u after) :
    after = before ∧ ∀ s, ∃ segments, Codec.layoutFrom s other fields = .ok segments := by
  induction fields generalizing index narrow other with
  | nil =>
    unfold checkWindow BitWindow.flush at run
    rw [alike.empty] at run
    unfold Codec.layoutFrom
    by_cases empty : other.isEmpty = true
    · simp only [empty, if_true] at run ⊢
      exact ⟨(yields_pure.mp run).2, fun _ => ⟨[], rfl⟩⟩
    · simp only [empty] at run
      exact (yields_fail run).elim
  | cons field rest ih =>
    simp only [checkWindow, yields_ite, yields_bind, yields_checked] at run
    obtain ⟨packed, pushed, _, ⟨pushes, rfl⟩, run⟩ | ⟨wide, run⟩ := run
    · split at run
      · obtain ⟨result, next, same, alike⟩ := alike.push pushes field
        obtain ⟨rfl, laid⟩ := ih alike run
        refine ⟨rfl, fun s => ?_⟩
        obtain ⟨segments, laid⟩ := laid s
        unfold Codec.layoutFrom
        rw [if_pos packed, same]
        cases result with
        | none => exact ⟨segments, laid⟩
        | some chunk =>
          exact ⟨.chunk chunk :: segments,
            bind_eq_ok.mpr ⟨_, rfl, bind_eq_ok.mpr ⟨segments, laid, rfl⟩⟩⟩
      · exact (yields_failAt run).elim
    · unfold BitWindow.flush at run
      rw [alike.empty] at run
      by_cases empty : other.isEmpty = true
      · simp only [empty, if_true] at run
        obtain ⟨rfl, laid⟩ := ih alike run
        refine ⟨rfl, fun s => ?_⟩
        obtain ⟨segments, laid⟩ := laid s
        unfold Codec.layoutFrom
        rw [if_neg wide, if_pos empty]
        exact ⟨.aligned field :: segments, bind_eq_ok.mpr ⟨segments, laid, rfl⟩⟩
      · simp only [empty] at run
        exact (yields_failAt run).elim

theorem Context.Coherent.addStruct {context : Context} (valid : context.Coherent window)
    {s : Struct} (wellFormed : s.WellFormed window context.model context.model.structs) :
    Context.Coherent
      { context with model := { context.model with structs := context.model.structs ++ [s] } }
      window := by
  have grows : context.model.Extends
      { context.model with structs := context.model.structs ++ [s] } :=
    ⟨List.prefix_refl _, List.prefix_append _ _, List.Subset.refl _⟩
  refine ⟨⟨?_, ?_, valid.model.enums⟩, ?_⟩
  · intro earlier t later split
    -- The structure at hand is the new last one, or stands before it.
    obtain rfl | ⟨init, last, rfl⟩ := List.eq_nil_or_concat later
    · obtain ⟨rfl, same⟩ := List.append_inj' split rfl
      injection same with same
      exact same ▸ wellFormed.mono grows
    · rw [List.concat_eq_append, ← List.cons_append, ← List.append_assoc] at split
      obtain ⟨same, -⟩ := List.append_inj' split rfl
      exact (valid.model.structs earlier t init same).mono grows
  · intro typeId listed
    obtain ⟨t, member, facts⟩ := valid.model.substructs typeId listed
    exact ⟨t, List.mem_append_left _ member, facts⟩
  · intro key id member
    obtain ⟨t, member, sameId⟩ := valid.built key id member
    exact ⟨t, List.mem_append_left _ member, sameId⟩

theorem addStruct_yields {s : Struct} {built : Built} (valid : before.Coherent window)
    (wellFormed : s.WellFormed window before.model before.model.structs)
    (run : Yields (do
      modifyModel fun model => { model with structs := model.structs ++ [s] }
      return Built.struct s.id) before built after) :
    after.Coherent window ∧ before.model.Extends after.model ∧
      ∀ id, built = .struct id → ∃ t ∈ after.model.structs, t.id = id := by
  simp only [yields_bind, yields_modifyModel, yields_pure] at run
  obtain ⟨_, _, rfl, rfl, rfl⟩ := run
  refine ⟨valid.addStruct wellFormed,
    ⟨List.prefix_refl _, List.prefix_append _ _, List.Subset.refl _⟩, ?_⟩
  intro id same
  injection same with same
  exact ⟨s, List.mem_append_right _ (List.mem_singleton_self s), same⟩

theorem finishStruct_yields {window : Nat} {key : String} {name : Option String} {role : Role}
    {draft : Draft} {built : Built} (valid : before.Coherent window)
    (coherent : draft.Coherent before.model)
    (run : Yields (finishStruct window key name role draft) before built after) :
    after.Coherent window ∧ before.model.Extends after.model ∧
      ∀ id, built = .struct id → ∃ s ∈ after.model.structs, s.id = id := by
  simp only [finishStruct, yields_ite, yields_bind, yields_pure, yields_fail, false_and,
    exists_false, and_false, false_or] at run
  obtain ⟨-, rfl, rfl⟩ | ⟨occupied, -, _, _, checked, run⟩ := run
  · exact ⟨valid, .refl _, by simp⟩
  have alike : Alike (BitWindow.empty window : BitWindow Nat)
      (BitWindow.empty window : BitWindow Field) := ⟨rfl, rfl, rfl⟩
  have positive : 0 < draft.sizeBits := by
    simp only [beq_iff_eq] at occupied
    exact Nat.pos_of_ne_zero occupied
  split at run
  · obtain ⟨_, middle, registered, run⟩ := yields_bind.mp run
    obtain ⟨rfl, laid⟩ := checkWindow_yields alike checked
    obtain ⟨valid, grows, -⟩ := registerDescriptor_builds _ _ _ valid registered
    have coherent := coherent.mono grows
    obtain ⟨valid, more, names⟩ := addStruct_yields valid
      ⟨coherent.fields, coherent.sizeBits, positive, coherent.descriptor, by exact laid _⟩ run
    exact ⟨valid, grows.trans more, names⟩
  · obtain ⟨rfl, laid⟩ := checkWindow_yields alike checked
    exact addStruct_yields valid
      ⟨coherent.fields, coherent.sizeBits, positive, coherent.descriptor, by exact laid _⟩ run

theorem yields_whileInProgress {α : Type} {key : String} {step : Build α} {a : α} :
    Yields (whileInProgress key step) before a after ↔
      ∃ middle, Yields step { before with inProgress := before.inProgress ++ [key] } a middle ∧
        after = { middle with inProgress := middle.inProgress.dropLast } := by
  unfold Yields whileInProgress
  constructor
  · intro h
    simp only [ExceptT.run] at h
    split at h
    next result middle stepped =>
      obtain ⟨rfl, rfl⟩ := Prod.mk.injEq .. ▸ h
      exact ⟨middle, stepped, rfl⟩
  · rintro ⟨middle, h, rfl⟩
    simp only [ExceptT.run] at h ⊢
    rw [h]

def Named (built : Built) (model : Model) : Prop :=
  ∀ id, built = .struct id → ∃ s ∈ model.structs, s.id = id

theorem structId_builds {step : Build Built} (builds : Builds window step Named) :
    Builds window (do
      match ← step with
      | .struct id => return some id
      | .templated | .empty => return none) NamesStruct := by
  intro before result after valid run
  obtain ⟨built, middle, first, run⟩ := yields_bind.mp run
  obtain ⟨valid, grows, named⟩ := builds valid first
  split at run <;> obtain ⟨rfl, rfl⟩ := yields_pure.mp run
  · next id =>
    refine ⟨valid, grows, ?_⟩
    rintro other same
    exact named other (by injection same with same; rw [same])
  · exact ⟨valid, grows, by simp [NamesStruct]⟩
  · exact ⟨valid, grows, by simp [NamesStruct]⟩

/-- By induction on the depth: the tables nested in a table have less room than it. -/
theorem buildTable_builds (document : Document) (window depth : Nat) (key : String)
    (name : Option String) (role : Role) :
    Builds window (buildTable document window depth key name role) Named := by
  induction depth generalizing key name role with
  | zero => exact fun _ _ _ _ run => (yields_fail run).elim
  | succ depth ih =>
    intro before built after valid run
    simp only [buildTable, yields_bind, yields_get] at run
    obtain ⟨_, _, ⟨rfl, rfl⟩, run⟩ := run
    split at run
    · next known =>
      obtain ⟨rfl, rfl⟩ := yields_pure.mp run
      refine ⟨valid, .refl _, ?_⟩
      rintro id rfl
      obtain ⟨front, back, split, -⟩ := List.lookup_eq_some_iff.mp known
      exact valid.built key id (split ▸ List.mem_append_right _ List.mem_cons_self)
    · simp only [yields_ite, yields_bind, yields_fail, false_and, exists_false, and_false, false_or,
        yields_get, yields_whileInProgress, yields_modify, yields_pure] at run
      obtain ⟨_, current, ⟨rfl, rfl⟩, -, _, _, ⟨ended, ⟨rows, filled, read, finished⟩, rfl⟩, _, _,
        rfl, rfl, rfl⟩ := run
      obtain ⟨valid, grows, drafted⟩ := buildRows_yields
        (fun key => structId_builds (ih key (some key) .nested))
        (by exact valid.of_model_eq rfl rfl rfl rfl) (Draft.coherent_empty _) read
      -- What the rows made is finished into an outcome, which is then recorded.
      obtain ⟨valid, grows, named⟩ :
          ended.Coherent window ∧ current.model.Extends ended.model ∧ Named built ended.model := by
        split at finished
        · obtain ⟨rfl, rfl⟩ := yields_pure.mp finished
          exact ⟨valid, grows, by simp [Named]⟩
        · next draft =>
          obtain ⟨valid, more, named⟩ := finishStruct_yields valid (drafted draft rfl) finished
          exact ⟨valid, grows.trans more, named⟩
      refine ⟨⟨valid.model, ?_⟩, grows, named⟩
      intro other id member
      obtain earlier | same := List.mem_append.mp member
      · exact valid.built other id earlier
      · obtain ⟨-, rfl⟩ := Prod.mk.injEq .. ▸ List.mem_singleton.mp same
        exact named id rfl

end PacketSpec.Builder
