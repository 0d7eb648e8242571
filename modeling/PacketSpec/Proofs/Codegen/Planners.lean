import PacketSpec.Proofs.Builder.Table
import PacketSpec.Proofs.Codec.Planning

/-! Three parts of the compiler pack narrow fields, each in a window of its own: the check of a
structure, which remembers indices, and the generators of encoders and decoders. They close the same
chunks. -/
namespace PacketSpec

variable {σ τ : Type}

namespace BitWindow

def map (relabel : σ → τ) (window : BitWindow σ) : BitWindow τ :=
  { window with pending := window.pending.map fun item => (relabel item.1, item.2) }

theorem isEmpty_map (relabel : σ → τ) (window : BitWindow σ) :
    (window.map relabel).isEmpty = window.isEmpty := by
  simp [isEmpty, map]

/-- What is remembered of a field has no influence on the window. -/
theorem push_map (relabel : σ → τ) (window : BitWindow σ) (symbol : σ) (width : Nat) :
    (window.map relabel).push (relabel symbol) width =
      (fun pushed => (pushed.1.map (Option.map (Chunk.map relabel)), pushed.2.map relabel)) <$>
        window.push symbol width := by
  have items : (window.map relabel).pending ++ [(relabel symbol, width)] =
      (window.pending ++ [(symbol, width)]).map fun item => (relabel item.1, item.2) := by
    simp [map]
  unfold push
  rw [items, show (window.map relabel).used = window.used from rfl,
    show (window.map relabel).capacity = window.capacity from rfl]
  cases Size.add window.used width with
  | error fault => rfl
  | ok used =>
    simp only [bind, Except.bind, place_map]
    by_cases overflow : window.capacity < used
    · rw [if_pos overflow, if_pos overflow]
      rfl
    · rw [if_neg overflow, if_neg overflow]
      by_cases closed : closes used = true
      · rw [if_pos closed, if_pos closed]
        rfl
      · rw [if_neg closed, if_neg closed]
        rfl

theorem place_fst (top : Nat) (items : List (σ × Nat)) :
    (place top items).map Packed.symbol = items.map Prod.fst := by
  induction items generalizing top with
  | nil => rfl
  | cons item rest ih =>
    obtain ⟨symbol, width⟩ := item
    rw [place, List.map_cons, List.map_cons, ih]

/-- What is remembered of the pushed fields, and of those in the chunk if one closes. -/
theorem push_symbols {window next : BitWindow σ} {symbol : σ} {width : Nat}
    {closed : Option (Chunk σ)} (pushed : window.push symbol width = .ok (.ok closed, next)) :
    (closed.toList.flatMap fun chunk => chunk.fields.map Packed.symbol) ++
        next.pending.map Prod.fst =
      window.pending.map Prod.fst ++ [symbol] := by
  obtain ⟨used, -, pushed⟩ := bind_eq_ok.mp pushed
  split at pushed
  · cases pushed
  · split at pushed
    · cases pushed
      simp [place_fst, empty]
    · cases pushed
      simp

end BitWindow

/-- A window closes the chunks while packed fields are pushed under their labels, the first of them
at the index. It is empty whenever another field or the end is reached. -/
inductive Plans (label : Nat → Field → σ) :
    Nat → BitWindow σ → List Field → List (Chunk σ) → Prop where
  | done {index : Nat} {window : BitWindow σ} (empty : window.isEmpty = true) :
    Plans label index window [] []
  | packed {index : Nat} {window next : BitWindow σ} {field : Field} {fields : List Field}
    {closed : Option (Chunk σ)} {chunks : List (Chunk σ)} (packed : field.isPacked = true)
    (pushed : window.push (label index field) field.width = .ok (.ok closed, next))
    (rest : Plans label (index + 1) next fields chunks) :
    Plans label index window (field :: fields) (closed.toList ++ chunks)
  | aligned {index : Nat} {window : BitWindow σ} {field : Field} {fields : List Field}
    {chunks : List (Chunk σ)} (wide : field.isPacked = false) (empty : window.isEmpty = true)
    (rest : Plans label (index + 1) window fields chunks) :
    Plans label index window (field :: fields) chunks

namespace Plans

variable {label : Nat → Field → σ} {index : Nat} {window : BitWindow σ} {fields : List Field}
  {chunks : List (Chunk σ)}

theorem map (plans : Plans label index window fields chunks) (relabel : σ → τ) :
    Plans (fun index field => relabel (label index field)) index (window.map relabel) fields
      (chunks.map (Chunk.map relabel)) := by
  induction plans with
  | done empty => exact .done ((BitWindow.isEmpty_map _ _).trans empty)
  | @packed index window next field fields closed chunks packed pushed rest ih =>
    have pushed : (window.map relabel).push (relabel (label index field)) field.width =
        .ok (.ok (closed.map (Chunk.map relabel)), next.map relabel) := by
      rw [BitWindow.push_map, pushed]
      rfl
    rw [List.map_append, show closed.toList.map (Chunk.map relabel) =
      (closed.map (Chunk.map relabel)).toList by cases closed <;> rfl]
    exact .packed packed pushed ih
  | aligned wide empty rest ih =>
    exact .aligned wide ((BitWindow.isEmpty_map _ _).trans empty) ih

/-- The labels in the chunks are those that were waiting, then those of the packed fields. -/
theorem symbols (plans : Plans label index window fields chunks) :
    (chunks.flatMap fun chunk => chunk.fields.map Packed.symbol) =
      window.pending.map Prod.fst ++
        ((fields.zipIdx index).filter (·.1.isPacked)).map fun item => label item.2 item.1 := by
  induction plans with
  | @done index window empty =>
    have nothing : window.pending = [] := by simpa [BitWindow.isEmpty] using empty
    simp [nothing]
  | @packed index window next field fields closed chunks packed pushed rest ih =>
    have first := BitWindow.push_symbols pushed
    rw [List.flatMap_append, ih, ← List.append_assoc, first, List.zipIdx_cons,
      List.filter_cons_of_pos (by exact packed)]
    simp
  | @aligned index window field fields chunks wide empty rest ih =>
    rw [ih, List.zipIdx_cons, List.filter_cons_of_neg (by simp [wide])]

end Plans

namespace Builder

variable {key : String} {index : Nat} {window : BitWindow Nat} {fields : List Field}
  {before after : Context}

/-- The check of a structure passes if its window, which remembers indices, closes all chunks. -/
theorem checkWindow_iff {u : Unit} :
    Yields (checkWindow key index window fields) before u after ↔
      after = before ∧ ∃ chunks, Plans (fun index _ => index) index window fields chunks := by
  induction fields generalizing index window with
  | nil =>
    unfold checkWindow BitWindow.flush
    by_cases empty : window.isEmpty = true
    · rw [if_pos empty]
      exact yields_pure.trans ⟨fun run => ⟨run.2, [], .done empty⟩, fun passed => ⟨rfl, passed.1⟩⟩
    · rw [if_neg empty]
      refine ⟨fun run => (yields_fail run).elim, ?_⟩
      rintro ⟨-, chunks, plans⟩
      cases plans with
      | done closed => exact absurd closed empty
  | cons field rest ih =>
    unfold checkWindow
    by_cases packed : field.isPacked = true
    · rw [if_pos packed, yields_bind]
      constructor
      · rintro ⟨pushed, middle, pushes, run⟩
        obtain ⟨known, rfl⟩ := yields_checked.mp pushes
        split at run
        · obtain ⟨rfl, chunks, plans⟩ := ih.mp run
          exact ⟨rfl, _, .packed packed known plans⟩
        · exact (yields_failAt run).elim
      · rintro ⟨rfl, chunks, plans⟩
        cases plans with
        | packed _ pushed plans =>
          exact ⟨_, _, yields_checked.mpr ⟨pushed, rfl⟩, ih.mpr ⟨rfl, _, plans⟩⟩
        | aligned wide => simp [packed] at wide
    · rw [if_neg packed]
      unfold BitWindow.flush
      by_cases empty : window.isEmpty = true
      · rw [if_pos empty]
        refine ih.trans (and_congr_right fun _ => exists_congr fun chunks => ?_)
        constructor
        · exact fun plans => .aligned (eq_false_of_ne_true packed) empty plans
        · intro plans
          cases plans with
          | packed narrow => exact absurd narrow packed
          | aligned _ _ plans => exact plans
      · rw [if_neg empty]
        refine ⟨fun run => (yields_failAt run).elim, ?_⟩
        rintro ⟨-, chunks, plans⟩
        cases plans with
        | packed narrow => exact absurd narrow packed
        | aligned _ closed => exact absurd closed empty

end Builder

namespace Codec

def Segment.chunk? : Segment → Option (Chunk Field)
  | .chunk shared => some shared
  | .aligned _ => none

/-- The chunks of a layout are those that a window closes, whatever else is remembered in it. -/
theorem layoutFrom_plans {s : Struct} {index : Nat} {window : BitWindow (Field × σ)}
    {fields : List Field} {segments : List Segment} (note : Nat → Field → σ)
    (laid : layoutFrom s (window.map Prod.fst) fields = .ok segments) :
    ∃ chunks, Plans (fun index field => (field, note index field)) index window fields chunks ∧
      segments.filterMap Segment.chunk? = chunks.map (Chunk.map Prod.fst) := by
  induction fields generalizing index window segments with
  | nil =>
    unfold layoutFrom at laid
    split at laid
    · next empty =>
      cases laid
      exact ⟨[], .done (by rwa [BitWindow.isEmpty_map] at empty), rfl⟩
    · cases laid
  | cons field rest ih =>
    unfold layoutFrom at laid
    split at laid
    · next packed =>
      obtain ⟨outcome, pushes, laid⟩ := bind_eq_ok.mp laid
      have mapped := BitWindow.push_map Prod.fst window (field, note index field) field.width
      obtain ⟨⟨refused | closed, next⟩, pushed, rfl⟩ := map_eq_ok.mp (mapped.symm.trans pushes)
      · cases laid
      · cases closed with
        | none =>
          obtain ⟨chunks, plans, same⟩ := @ih (index + 1) _ _ laid
          exact ⟨_, .packed packed pushed plans, same⟩
        | some chunk =>
          obtain ⟨more, tail, eq⟩ := bind_eq_ok.mp laid
          cases eq
          obtain ⟨chunks, plans, same⟩ := @ih (index + 1) _ _ tail
          exact ⟨_, .packed packed pushed plans, congrArg (chunk.map Prod.fst :: ·) same⟩
    · next wide =>
      split at laid
      · next empty =>
        obtain ⟨more, tail, eq⟩ := bind_eq_ok.mp laid
        cases eq
        obtain ⟨chunks, plans, same⟩ := @ih (index + 1) _ _ tail
        rw [BitWindow.isEmpty_map] at empty
        exact ⟨chunks, .aligned (eq_false_of_ne_true wide) empty plans, same⟩
      · cases laid

/-- The check of a structure closes the chunks of its layout, with indices for fields. -/
theorem layout_plans {s : Struct} {window : Nat} {segments : List Segment}
    (laid : layout window s = .ok segments) :
    ∃ chunks, Plans (fun index _ => index) 0 (BitWindow.empty window) s.fields chunks ∧
      chunks.map (Chunk.map fun index => s.fields[index]?) =
        (segments.filterMap Segment.chunk?).map (Chunk.map some) := by
  -- One window remembers fields and indices; the layout and the check each see one of the two.
  obtain ⟨chunks, plans, same⟩ := @layoutFrom_plans Nat s 0 (BitWindow.empty window) s.fields
    segments (fun index _ => index) laid
  refine ⟨_, plans.map Prod.snd, ?_⟩
  rw [same, List.map_map, List.map_map]
  refine List.map_congr_left fun chunk member => ?_
  have places : ∀ packed ∈ chunk.fields,
      s.fields[packed.symbol.2]? = some packed.symbol.1 := by
    intro packed inside
    have listed : packed.symbol ∈ chunks.flatMap fun chunk => chunk.fields.map Packed.symbol :=
      List.mem_flatMap.mpr ⟨chunk, member, List.mem_map_of_mem inside⟩
    rw [plans.symbols] at listed
    have numbered : packed.symbol ∈ s.fields.zipIdx ∧ packed.symbol.1.isPacked = true := by
      simpa [BitWindow.empty] using listed
    exact List.mem_zipIdx_iff_getElem?.mp numbered.1
  simp only [Function.comp_apply, Chunk.map, List.map_map]
  congr 1
  exact List.map_congr_left fun packed inside => by
    simp [Packed.map, places packed inside]

end Codec

end PacketSpec
