import Mathlib.Data.List.Chain
import PacketSpec.Proofs.Codec.Planning

/-! What a window makes of any sequence of fields that is pushed into it. No field is lost or moved
before another one, every chunk is filled from its top bit down to its last one, and a window that
has overflowed stays so. -/
namespace PacketSpec

variable {σ : Type}

def Chunk.items (chunk : Chunk σ) : List (σ × Nat) :=
  chunk.fields.map fun packed => (packed.symbol, packed.width)

/-- A chunk that a window of the given capacity may close: it is as wide as a power of two of at
least a byte, its fields close it together and no fewer of them would, and they lie in it from the
top down without a gap. -/
structure Chunk.Packs (chunk : Chunk σ) (capacity : Nat) : Prop where
  power : chunk.width.isPowerOfTwo
  atLeastByte : 8 ≤ chunk.width
  room : chunk.width ≤ capacity
  sum : (chunk.fields.map Packed.width).sum = chunk.width
  shortest : ∀ front back, chunk.fields = front ++ back → back ≠ [] →
    8 ≤ (front.map Packed.width).sum → ¬ (front.map Packed.width).sum.isPowerOfTwo
  top : ∀ first, chunk.fields.head? = some first → first.shift + first.width = chunk.width
  below : chunk.fields.IsChain fun upper lower => lower.shift + lower.width = upper.shift
  bottom : ∀ last, chunk.fields.getLast? = some last → last.shift = 0

namespace BitWindow

theorem closes_iff {used : Nat} : closes used = true ↔ 8 ≤ used ∧ used.isPowerOfTwo := by
  simp only [closes, Bool.and_eq_true, decide_eq_true_eq, beq_iff_eq, Nat.one_shiftLeft]
  apply and_congr_right
  intro _
  constructor
  · exact fun same => ⟨used.log2, same⟩
  · rintro ⟨k, rfl⟩
    rw [Nat.log2_two_pow]

theorem widthOf_append (front back : List (σ × Nat)) :
    widthOf (front ++ back) = widthOf front + widthOf back := by
  simp [widthOf]

/-- The first of the fields stands above all others. -/
theorem place_cons (item : σ × Nat) (rest : List (σ × Nat)) :
    place (widthOf (item :: rest)) (item :: rest) =
      ⟨item.1, item.2, widthOf rest⟩ :: place (widthOf rest) rest := by
  have below : widthOf (item :: rest) - item.2 = widthOf rest := by
    simp [widthOf]
  rw [place, below]

theorem place_items (top : Nat) (items : List (σ × Nat)) :
    (place top items).map (fun packed => (packed.symbol, packed.width)) = items := by
  induction items generalizing top with
  | nil => rfl
  | cons item rest ih => rw [place, List.map_cons, ih]

theorem items_chunkOf (items : List (σ × Nat)) : (chunkOf items).items = items :=
  place_items _ items

theorem widths_place (top : Nat) (items : List (σ × Nat)) :
    (place top items).map Packed.width = items.map Prod.snd := by
  rw [← congrArg (List.map Prod.snd) (place_items top items), List.map_map]
  rfl

theorem place_top {items : List (σ × Nat)} {first : Packed σ}
    (leads : (place (widthOf items) items).head? = some first) :
    first.shift + first.width = widthOf items := by
  cases items with
  | nil => cases leads
  | cons item rest =>
    rw [place_cons] at leads
    cases leads
    simp [widthOf, Nat.add_comm]

theorem place_below (items : List (σ × Nat)) :
    (place (widthOf items) items).IsChain
      fun upper lower => lower.shift + lower.width = upper.shift := by
  induction items with
  | nil => exact .nil
  | cons item rest ih =>
    rw [place_cons]
    apply List.isChain_cons.mpr
    constructor
    · intro lower next
      exact place_top next
    · exact ih

theorem place_bottom {items : List (σ × Nat)} {last : Packed σ}
    (ends : (place (widthOf items) items).getLast? = some last) : last.shift = 0 := by
  induction items with
  | nil => cases ends
  | cons item rest ih =>
    rw [place_cons] at ends
    cases rest with
    | nil =>
      cases ends
      rfl
    | cons next rest =>
      rw [place_cons, List.getLast?_cons_cons] at ends
      rw [place_cons] at ih
      exact ih ends

theorem Completes.packs {capacity : Nat} {items : List (σ × Nat)}
    (completes : Completes capacity (items.map Prod.snd)) : (chunkOf items).Packs capacity where
  power := (closes_iff.mp completes.closes).2
  atLeastByte := (closes_iff.mp completes.closes).1
  room := completes.room
  sum := congrArg List.sum (widths_place _ items)
  shortest front back split more large power := by
    have widths : items.map Prod.snd = front.map Packed.width ++ back.map Packed.width := by
      rw [← List.map_append, ← split]
      exact (widths_place _ items).symm
    have opened := completes.first _ _ widths (by simpa using more)
    rw [closes_iff.mpr ⟨large, power⟩] at opened
    cases opened
  top _ leads := place_top leads
  below := place_below items
  bottom _ ends := place_bottom ends

abbrev Outcome (σ : Type) := Except WindowError (Option (Chunk σ))

/-- Pushes fields one after the other, also after one that failed. -/
def pushAll (window : BitWindow σ) :
    List (σ × Nat) → Except Fault (List (Outcome σ) × BitWindow σ)
  | [] => .ok ([], window)
  | (symbol, width) :: rest => do
    let (outcome, next) ← window.push symbol width
    let (outcomes, last) ← next.pushAll rest
    return (outcome :: outcomes, last)

theorem pushAll_cons {window next last : BitWindow σ} {symbol : σ} {width : Nat}
    {rest : List (σ × Nat)} {outcome : Outcome σ} {outcomes : List (Outcome σ)}
    (pushed : window.push symbol width = .ok (outcome, next))
    (others : next.pushAll rest = .ok (outcomes, last)) :
    window.pushAll ((symbol, width) :: rest) = .ok (outcome :: outcomes, last) := by
  rw [pushAll, pushed]
  exact bind_eq_ok.mpr ⟨_, rfl, bind_eq_ok.mpr ⟨_, others, rfl⟩⟩

def chunksOf (outcomes : List (Outcome σ)) : List (Chunk σ) :=
  outcomes.filterMap fun outcome => outcome.toOption.join

def Overflows (capacity : Nat) (outcome : Outcome σ) : Prop :=
  ∃ used, capacity < used ∧ outcome = .error (.overflow used capacity)

theorem chunksOf_overflows {capacity : Nat} {outcomes : List (Outcome σ)}
    (all : ∀ outcome ∈ outcomes, Overflows capacity outcome) : chunksOf outcomes = [] := by
  apply List.filterMap_eq_nil_iff.mpr
  intro outcome member
  obtain ⟨used, -, rfl⟩ := all outcome member
  rfl

/-- The fields have room, and no front of them closes a chunk. -/
structure Collects (capacity : Nat) (waiting : List (σ × Nat)) : Prop where
  room : widthOf waiting ≤ capacity
  opens : ∀ front back, waiting = front ++ back → closes (widthOf front) = false

theorem collects_nil (capacity : Nat) : Collects capacity ([] : List (σ × Nat)) where
  room := Nat.zero_le _
  opens front back split := by
    obtain ⟨rfl, -⟩ := List.append_eq_nil_iff.mp split.symm
    rfl

/-- A front of the fields with one more is a front of these fields, or all of them. -/
theorem Collects.front {capacity : Nat} {waiting front back : List (σ × Nat)} {item : σ × Nat}
    (collects : Collects capacity waiting) (split : waiting ++ [item] = front ++ back)
    (more : back ≠ []) : closes (widthOf front) = false := by
  rcases List.eq_nil_or_concat back with rfl | ⟨between, last, rfl⟩
  · exact absurd rfl more
  · rw [List.concat_eq_append, ← List.append_assoc] at split
    exact collects.opens front between (List.append_inj' split rfl).1

theorem Collects.concat {capacity : Nat} {waiting : List (σ × Nat)} {item : σ × Nat}
    (collects : Collects capacity waiting) (room : widthOf (waiting ++ [item]) ≤ capacity)
    (opened : ¬ closes (widthOf (waiting ++ [item])) = true) :
    Collects capacity (waiting ++ [item]) where
  room := room
  opens front back split := by
    by_cases last : back = []
    · rw [last, List.append_nil] at split
      rw [← split]
      exact eq_false_of_ne_true opened
    · exact collects.front split last

theorem Collects.completes {capacity : Nat} {waiting : List (σ × Nat)} {item : σ × Nat}
    (collects : Collects capacity waiting) (room : widthOf (waiting ++ [item]) ≤ capacity)
    (small : widthOf (waiting ++ [item]) < Size.bound)
    (closing : closes (widthOf (waiting ++ [item])) = true) :
    Completes capacity ((waiting ++ [item]).map Prod.snd) where
  closes := closing
  room := room
  small := small
  first front back split more := by
    obtain ⟨ahead, behind, whole, rfl, rfl⟩ := List.map_eq_append_iff.mp split
    exact collects.front whole (by simpa using more)

/-- After the first push that failed, all others overflow, and what is left overflows too. -/
def StaysOverflowed (capacity : Nat) (outcomes : List (Outcome σ)) (left : List (σ × Nat)) : Prop :=
  ∀ front error back, outcomes = front ++ .error error :: back →
    Overflows capacity (.error error : Outcome σ) ∧
      (∀ outcome ∈ back, Overflows capacity outcome) ∧ capacity < widthOf left

theorem StaysOverflowed.cons_ok {capacity : Nat} {outcomes : List (Outcome σ)}
    {left : List (σ × Nat)} (stays : StaysOverflowed capacity outcomes left)
    (closed : Option (Chunk σ)) : StaysOverflowed capacity (.ok closed :: outcomes) left := by
  intro front error back split
  cases front with
  | nil => cases split
  | cons outcome front => exact stays front error back (List.cons.inj split).2

theorem staysOverflowed_of_all {capacity : Nat} {outcomes : List (Outcome σ)}
    {left : List (σ × Nat)} (all : ∀ outcome ∈ outcomes, Overflows capacity outcome)
    (beyond : capacity < widthOf left) : StaysOverflowed capacity outcomes left := by
  rintro front error back rfl
  exact ⟨all _ (by simp), fun outcome member => all outcome (by simp [member]), beyond⟩

/-- What comes of the fields `items` where `waiting` were pending before and `left` are after them. -/
structure Distributed (capacity : Nat) (waiting items : List (σ × Nat))
    (outcomes : List (Outcome σ)) (left : List (σ × Nat)) : Prop where
  length : outcomes.length = items.length
  order : (chunksOf outcomes).flatMap Chunk.items ++ left = waiting ++ items
  chunks : ∀ chunk ∈ chunksOf outcomes, chunk.Packs capacity
  overflow : StaysOverflowed capacity outcomes left

theorem distributed_nil (capacity : Nat) (waiting : List (σ × Nat)) :
    Distributed capacity waiting [] [] waiting :=
  ⟨rfl, by simp [chunksOf], by simp [chunksOf], by simp [StaysOverflowed]⟩

theorem Distributed.wait {capacity : Nat} {waiting rest left : List (σ × Nat)} {item : σ × Nat}
    {outcomes : List (Outcome σ)}
    (later : Distributed capacity (waiting ++ [item]) rest outcomes left) :
    Distributed capacity waiting (item :: rest) (.ok none :: outcomes) left where
  length := by simp [later.length]
  order := by
    rw [List.append_cons]
    exact later.order
  chunks := later.chunks
  overflow := later.overflow.cons_ok none

theorem Distributed.close {capacity : Nat} {waiting rest left : List (σ × Nat)} {item : σ × Nat}
    {outcomes : List (Outcome σ)}
    (completes : Completes capacity ((waiting ++ [item]).map Prod.snd))
    (later : Distributed capacity [] rest outcomes left) :
    Distributed capacity waiting (item :: rest)
      (.ok (some (chunkOf (waiting ++ [item]))) :: outcomes) left where
  length := by simp [later.length]
  order := by
    have order := later.order
    change ((chunkOf _).items ++ (chunksOf outcomes).flatMap Chunk.items) ++ left = _
    rw [items_chunkOf, List.append_assoc, order]
    simp
  chunks := List.forall_mem_cons.mpr ⟨completes.packs, later.chunks⟩
  overflow := later.overflow.cons_ok _

theorem distributed_of_overflows {capacity : Nat} {waiting items : List (σ × Nat)}
    {outcomes : List (Outcome σ)} (length : outcomes.length = items.length)
    (all : ∀ outcome ∈ outcomes, Overflows capacity outcome)
    (beyond : capacity < widthOf (waiting ++ items)) :
    Distributed capacity waiting items outcomes (waiting ++ items) where
  length := length
  order := by
    rw [chunksOf_overflows all]
    rfl
  chunks := by
    rw [chunksOf_overflows all]
    simp
  overflow := staysOverflowed_of_all all beyond

/-- Once a field is beyond the capacity, all later ones are. -/
theorem pushAll_overflowed {capacity : Nat} {waiting items : List (σ × Nat)}
    (beyond : capacity < widthOf waiting) (small : widthOf (waiting ++ items) < Size.bound) :
    ∃ outcomes, (holding capacity waiting).pushAll items =
        .ok (outcomes, holding capacity (waiting ++ items)) ∧
      outcomes.length = items.length ∧ ∀ outcome ∈ outcomes, Overflows capacity outcome := by
  induction items generalizing waiting with
  | nil => exact ⟨[], by rw [List.append_nil]; rfl, rfl, by simp⟩
  | cons item rest ih =>
    obtain ⟨symbol, width⟩ := item
    rw [List.append_cons] at small ⊢
    have first := Nat.lt_of_le_of_lt (Nat.le_add_right _ _) (widthOf_append _ rest ▸ small)
    rw [widthOf_concat] at first
    have exceeds : capacity < widthOf waiting + width := by omega
    obtain ⟨outcomes, run, length, all⟩ := ih (by rwa [widthOf_concat]) small
    refine ⟨_, pushAll_cons (by rw [push_holding first, if_pos exceeds]) run, by simp [length], ?_⟩
    exact List.forall_mem_cons.mpr ⟨⟨_, exceeds, rfl⟩, all⟩

/-- By induction on the fields: the window goes on collecting, closes a chunk, or overflows. -/
theorem pushAll_distributed {capacity : Nat} {waiting items : List (σ × Nat)}
    (collects : Collects capacity waiting) (small : widthOf (waiting ++ items) < Size.bound) :
    ∃ outcomes left, (holding capacity waiting).pushAll items =
        .ok (outcomes, holding capacity left) ∧ Distributed capacity waiting items outcomes left := by
  induction items generalizing waiting with
  | nil => exact ⟨[], waiting, rfl, distributed_nil capacity waiting⟩
  | cons item rest ih =>
    obtain ⟨symbol, width⟩ := item
    rw [List.append_cons] at small
    have total := widthOf_append (waiting ++ [(symbol, width)]) rest
    have joined := widthOf_concat waiting symbol width
    have pushed := @push_holding _ capacity waiting symbol width (by omega)
    by_cases exceeds : capacity < widthOf waiting + width
    · rw [if_pos exceeds] at pushed
      obtain ⟨outcomes, run, length, all⟩ :=
        pushAll_overflowed (by rwa [joined]) small
      rw [← List.append_cons] at run
      refine ⟨_, _, pushAll_cons pushed run, distributed_of_overflows (by simp [length]) ?_ ?_⟩
      · exact List.forall_mem_cons.mpr ⟨⟨_, exceeds, rfl⟩, all⟩
      · rw [List.append_cons]
        omega
    · rw [if_neg exceeds] at pushed
      by_cases closing : closes (widthOf waiting + width) = true
      · rw [if_pos closing] at pushed
        obtain ⟨outcomes, left, run, later⟩ := ih (collects_nil capacity)
          (by rw [List.nil_append]; omega)
        have completes : Completes capacity ((waiting ++ [(symbol, width)]).map Prod.snd) :=
          collects.completes (by omega) (by omega) (by rwa [joined])
        exact ⟨_, left, pushAll_cons pushed run, Distributed.close completes later⟩
      · rw [if_neg closing] at pushed
        obtain ⟨outcomes, left, run, later⟩ := ih
          (collects.concat (by omega) (by rwa [joined])) small
        exact ⟨_, left, pushAll_cons pushed run, later.wait⟩

theorem flush_holding (capacity : Nat) (left : List (σ × Nat)) :
    (holding capacity left).flush =
      if left = [] then .ok () else .error (.misaligned (left.map Prod.snd).sum) := by
  cases left <;> rfl

/-- Fields are pushed into an empty window. At every time, the fields of the chunks that were
returned and then the pending ones are those that were pushed, in order. Every chunk is packed as it
should be. A window can be flushed only if nothing is pending, and tells how many bits are otherwise.
After a push that overflows, all later ones overflow too, and the window can never be flushed. -/
theorem pushes_keep_order (capacity : Nat) (items : List (σ × Nat))
    (small : (items.map Prod.snd).sum < Size.bound) :
    ∃ outcomes window, (empty capacity).pushAll items = .ok (outcomes, window) ∧
      outcomes.length = items.length ∧
      (chunksOf outcomes).flatMap Chunk.items ++ window.pending = items ∧
      (∀ chunk ∈ chunksOf outcomes, chunk.Packs capacity) ∧
      (window.flush = .ok () ↔ window.pending = []) ∧
      (window.pending ≠ [] →
        window.flush = .error (.misaligned (window.pending.map Prod.snd).sum)) ∧
      ∀ front error back, outcomes = front ++ .error error :: back →
        Overflows capacity (.error error : Outcome σ) ∧
        (∀ outcome ∈ back, Overflows capacity outcome) ∧ window.flush ≠ .ok () := by
  obtain ⟨outcomes, left, run, all⟩ := pushAll_distributed (collects_nil capacity) small
  refine ⟨outcomes, holding capacity left, run, all.length, all.order, all.chunks, ?_⟩
  rw [flush_holding]
  refine ⟨?_, fun remains => if_neg remains, fun front error back split => ?_⟩
  · by_cases empty : left = [] <;> simp [empty, holding]
  · obtain ⟨exceeds, later, beyond⟩ := all.overflow front error back split
    have remains : left ≠ [] := by
      rintro rfl
      cases beyond
    exact ⟨exceeds, later, by simp [remains]⟩

/-- Two chunks are closed in a window of sixteen bits, then two fields wait, and one does not fit. -/
theorem pushes_of_letters :
    (([("a", 3), ("b", 5), ("c", 4), ("d", 6), ("e", 6), ("f", 9), ("g", 2), ("h", 7)] :
        List (String × Nat)).map Prod.snd).sum < Size.bound ∧
      ∃ outcomes window, (empty 16).pushAll [("a", 3), ("b", 5), ("c", 4), ("d", 6), ("e", 6),
          ("f", 9), ("g", 2), ("h", 7)] = .ok (outcomes, window) ∧
        chunksOf outcomes = [
          ⟨8, [⟨"a", 3, 5⟩, ⟨"b", 5, 0⟩]⟩, ⟨16, [⟨"c", 4, 12⟩, ⟨"d", 6, 6⟩, ⟨"e", 6, 0⟩]⟩] ∧
        (∀ chunk ∈ chunksOf outcomes, chunk.Packs 16) ∧ window.flush ≠ .ok () := by
  have small : (([("a", 3), ("b", 5), ("c", 4), ("d", 6), ("e", 6), ("f", 9), ("g", 2),
      ("h", 7)] : List (String × Nat)).map Prod.snd).sum < Size.bound := by decide
  obtain ⟨outcomes, window, run, -, -, packed, -, -, overflow⟩ := pushes_keep_order 16 _ small
  refine ⟨small, outcomes, window, run, ?_, packed, ?_⟩
  · cases run
    rfl
  · cases run
    exact (overflow [_, _, _, _, _, _, _] _ [] rfl).2.2

end BitWindow

end PacketSpec
