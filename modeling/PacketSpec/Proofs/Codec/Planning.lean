import PacketSpec.Proofs.Codec.Layout

/-! How fields come to share a chunk: they are pushed one after the other, and none but the last
closes the chunk. What the window is asked to remember for a field has no influence on that. -/
namespace PacketSpec

variable {σ τ : Type}

def Packed.map (relabel : σ → τ) (packed : Packed σ) : Packed τ :=
  { packed with symbol := relabel packed.symbol }

def Chunk.map (relabel : σ → τ) (chunk : Chunk σ) : Chunk τ :=
  { chunk with fields := chunk.fields.map (Packed.map relabel) }

namespace BitWindow

def widthOf (items : List (σ × Nat)) : Nat := (items.map Prod.snd).sum

theorem widthOf_concat (items : List (σ × Nat)) (symbol : σ) (width : Nat) :
    widthOf (items ++ [(symbol, width)]) = widthOf items + width := by
  simp [widthOf]

theorem widthOf_widthsOf (fields : List Field) : widthOf (widthsOf fields) = totalWidth fields := by
  induction fields with
  | nil => rfl
  | cons field rest ih =>
    have sum : widthOf (widthsOf (field :: rest)) = field.width + widthOf (widthsOf rest) := by
      simp [widthOf, widthsOf]
    rw [sum, ih, totalWidth]

def holding (capacity : Nat) (items : List (σ × Nat)) : BitWindow σ :=
  { capacity, used := widthOf items, pending := items }

def chunkOf (items : List (σ × Nat)) : Chunk σ :=
  ⟨widthOf items, place (widthOf items) items⟩

theorem place_map (relabel : σ → τ) (top : Nat) (items : List (σ × Nat)) :
    place top (items.map fun item => (relabel item.1, item.2)) =
      (place top items).map (Packed.map relabel) := by
  induction items generalizing top with
  | nil => rfl
  | cons item rest ih =>
    obtain ⟨symbol, width⟩ := item
    rw [List.map_cons, place, place, List.map_cons, ih]
    rfl

theorem chunkOf_map (relabel : σ → τ) (items : List (σ × Nat)) :
    chunkOf (items.map fun item => (relabel item.1, item.2)) = (chunkOf items).map relabel := by
  have same : widthOf (items.map fun item => (relabel item.1, item.2)) = widthOf items := by
    simp [widthOf, Function.comp_def]
  rw [chunkOf, same, place_map]
  rfl

theorem push_holding {capacity : Nat} {items : List (σ × Nat)} {symbol : σ} {width : Nat}
    (small : widthOf items + width < Size.bound) :
    (holding capacity items).push symbol width =
      if capacity < widthOf items + width then
        .ok (.error (.overflow (widthOf items + width) capacity),
          holding capacity (items ++ [(symbol, width)]))
      else if closes (widthOf items + width) then
        .ok (.ok (some (chunkOf (items ++ [(symbol, width)]))), empty capacity)
      else .ok (.ok none, holding capacity (items ++ [(symbol, width)])) := by
  have added : Size.add (widthOf items) width = .ok (widthOf items + width) :=
    Size.check_of_lt small
  simp only [push, holding, added, bind, Except.bind, chunkOf, widthOf_concat]
  rfl

theorem small_of_push {window : BitWindow σ} {symbol : σ} {width : Nat}
    {result : Except WindowError (Option (Chunk σ)) × BitWindow σ}
    (pushed : window.push symbol width = .ok result) : window.used + width < Size.bound := by
  obtain ⟨used, added, -⟩ := bind_eq_ok.mp pushed
  exact (Size.add_eq_ok.mp added).2

/-- The widths close a chunk of the window, and no fewer of them do. -/
structure Completes (capacity : Nat) (widths : List Nat) : Prop where
  closes : closes widths.sum = true
  room : widths.sum ≤ capacity
  small : widths.sum < Size.bound
  first : ∀ front back, widths = front ++ back → back ≠ [] → BitWindow.closes front.sum = false

theorem Completes.push_last {capacity : Nat} {items : List (σ × Nat)} {symbol : σ} {width : Nat}
    (completes : Completes capacity ((items ++ [(symbol, width)]).map Prod.snd)) :
    (holding capacity items).push symbol width =
      .ok (.ok (some (chunkOf (items ++ [(symbol, width)]))), empty capacity) := by
  have sum : ((items ++ [(symbol, width)]).map Prod.snd).sum = widthOf items + width :=
    widthOf_concat items symbol width
  have closes := completes.closes
  have room := completes.room
  have small := completes.small
  rw [sum] at closes room small
  rw [push_holding small, if_neg (by omega), if_pos closes]

theorem Completes.push_open {capacity : Nat} {items rest : List (σ × Nat)} {symbol : σ}
    {width : Nat} (completes : Completes capacity ((items ++ (symbol, width) :: rest).map Prod.snd))
    (more : rest ≠ []) :
    (holding capacity items).push symbol width =
      .ok (.ok none, holding capacity (items ++ [(symbol, width)])) := by
  have sum : ((items ++ (symbol, width) :: rest).map Prod.snd).sum =
      widthOf items + width + widthOf rest := by
    simp [widthOf, Nat.add_assoc]
  have opened := completes.first ((items ++ [(symbol, width)]).map Prod.snd) (rest.map Prod.snd)
    (by simp) (by simpa using more)
  have room := completes.room
  have small := completes.small
  rw [sum] at room small
  rw [show ((items ++ [(symbol, width)]).map Prod.snd).sum = widthOf items + width from
    widthOf_concat items symbol width] at opened
  rw [push_holding (by omega), if_neg (by omega), if_neg (by simp [opened])]

end BitWindow

namespace Codec

def Segment.Planned (capacity : Nat) : Segment → Prop
  | .chunk shared => ∃ fields, shared = BitWindow.chunkOf (widthsOf fields) ∧
      (∀ field ∈ fields, field.isPacked = true) ∧
      BitWindow.Completes capacity (fields.map Field.width)
  | .aligned field => field.isPacked = false

def Opens (fields : List Field) : Prop :=
  ∀ front back, fields.map Field.width = front ++ back → BitWindow.closes front.sum = false

theorem opens_nil : Opens [] := by
  intro front back nothing
  rw [(List.append_eq_nil_iff.mp nothing.symm).1]
  rfl

/-- A front of fields that stay open with one more is a front of these fields, or all of them. -/
theorem Opens.concat {waiting : List Field} {field : Field} {front back : List Nat}
    (opens : Opens waiting) (split : (waiting ++ [field]).map Field.width = front ++ back)
    (more : back ≠ []) : BitWindow.closes front.sum = false := by
  rw [List.map_append, List.map_singleton, List.append_eq_append_iff] at split
  rcases split with ⟨last, rfl, one⟩ | ⟨last, before, -⟩
  · obtain ⟨rfl, rfl⟩ | ⟨rfl, rfl⟩ := List.append_eq_singleton_iff.mp one.symm
    · exact opens _ [] (by simp)
    · exact absurd rfl more
  · exact opens front last before

theorem layoutFrom_planned {s : Struct} {capacity : Nat} {waiting fields : List Field}
    {segments : List Segment} (packed : ∀ field ∈ waiting, field.isPacked = true)
    (opens : Opens waiting)
    (laid : layoutFrom s (BitWindow.holding capacity (widthsOf waiting)) fields = .ok segments) :
    ∀ segment ∈ segments, segment.Planned capacity := by
  induction fields generalizing waiting segments with
  | nil =>
    unfold layoutFrom at laid
    split at laid
    · cases laid
      simp
    · cases laid
  | cons field rest ih =>
    unfold layoutFrom at laid
    split at laid
    · next narrow =>
      obtain ⟨pushed, step, laid⟩ := bind_eq_ok.mp laid
      have all : ∀ other ∈ waiting ++ [field], other.isPacked = true := by
        simpa [or_imp, forall_and] using ⟨packed, narrow⟩
      have items : widthsOf waiting ++ [(field, field.width)] = widthsOf (waiting ++ [field]) := by
        simp [widthsOf]
      have sum : ((waiting ++ [field]).map Field.width).sum =
          BitWindow.widthOf (widthsOf waiting) + field.width := by
        simp [BitWindow.widthOf, widthsOf, Function.comp_def]
      have small := BitWindow.small_of_push step
      rw [BitWindow.push_holding small, items] at step
      split at step
      · cases step
        cases laid
      · next room =>
        split at step
        · next closes =>
          cases step
          obtain ⟨more, tail, eq⟩ := bind_eq_ok.mp laid
          cases eq
          refine List.forall_mem_cons.mpr ⟨⟨_, rfl, all, ?_, ?_, ?_, fun _ _ => opens.concat⟩, ?_⟩
          · rwa [sum]
          · rw [sum]
            omega
          · rwa [sum]
          · exact @ih [] _ (by simp) opens_nil tail
        · next waits =>
          cases step
          refine ih all (fun front back split => ?_) laid
          by_cases last : back = []
          · subst last
            rw [List.append_nil] at split
            rw [← split, sum]
            simpa using waits
          · exact opens.concat split last
    · next wide =>
      split at laid
      · obtain ⟨more, tail, eq⟩ := bind_eq_ok.mp laid
        cases eq
        exact List.forall_mem_cons.mpr ⟨eq_false_of_ne_true wide, ih packed opens tail⟩
      · cases laid

/-- The segments of a structure are planned in its window. -/
theorem layout_planned {capacity : Nat} {s : Struct} {segments : List Segment}
    (laid : layout capacity s = .ok segments) : ∀ segment ∈ segments, segment.Planned capacity := by
  have laid : layoutFrom s (BitWindow.holding capacity (widthsOf [])) s.fields = .ok segments :=
    laid
  exact layoutFrom_planned (by simp) opens_nil laid

theorem fields_chunkOf (fields : List Field) :
    (Segment.chunk (BitWindow.chunkOf (widthsOf fields))).fields = fields :=
  BitWindow.place_symbols _ fields

end Codec

end PacketSpec
