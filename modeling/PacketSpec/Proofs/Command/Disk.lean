import PacketSpec.Command.Disk

/-! What a disk holds once texts have been written to it. Paths that are spelled in different ways may
lead to one file, so that a later text may take the place of an earlier one. -/
namespace PacketSpec.Command

structure Reaches (path : String) (location : Location) : Prop where
  sound : pathError? path = none
  file : Target.ofPath path = .file location
  short : Disk.nameTooLong location = false

def lastTo (target : Target) (texts : List (String × String)) : Option String :=
  (texts.reverse.find? fun written => Target.ofPath written.1 = target).map Prod.snd

/-- Texts have been written, each with its path, and nothing else has changed. -/
structure Disk.Wrote (disk : Disk) (texts : List (String × String)) (after : Disk) : Prop where
  /-- Every path holds the last text for the file to which it leads. -/
  read : ∀ written ∈ texts, ∃ last, lastTo (.ofPath written.1) texts = some last ∧
    after.read written.1 = .ok (Wire.Utf8.ofString last)
  get? : ∀ location, after.get? location =
    ((lastTo (.file location) texts).map Wire.Utf8.ofString).or (disk.get? location)

variable {disk next after : Disk} {path text : String} {content : Wire.Bytes}
  {location other : Location} {texts : List (String × String)}

theorem lookup_cons_eq (location other : Location) (files : List (Location × Wire.Bytes)) :
    ((location, content) :: files).lookup other =
      if other = location then some content else files.lookup other := by
  by_cases same : other = location
  · rw [if_pos same, same, List.lookup_cons_self]
  · rw [if_neg same, List.lookup_cons, beq_false_of_ne same]

theorem lookup_replace (files : List (Location × Wire.Bytes)) (other : Location) :
    (files.map fun (l, c) => if l = location then (l, content) else (l, c)).lookup other =
      if other = location then (files.lookup location).map fun _ => content
      else files.lookup other := by
  induction files with
  | nil => simp
  | cons file rest ih =>
    obtain ⟨place, held⟩ := file
    rw [List.map_cons]
    by_cases same : place = location
    · subst same
      simp only [if_true, lookup_cons_eq, ih]
      split
      · rfl
      · rfl
    · simp only [if_neg same, lookup_cons_eq, ih, if_neg (Ne.symm same)]
      by_cases here : other = place
      · rw [if_pos here, if_neg (here ▸ same), if_pos here]
      · rw [if_neg here, if_neg here]

theorem Disk.get?_put (disk : Disk) (location : Location) (content : Wire.Bytes)
    (other : Location) :
    (disk.put location content).get? other =
      if other = location then some content else disk.get? other := by
  rw [put]
  cases held : disk.get? location with
  | some old =>
    replace held : disk.files.lookup location = some old := held
    rw [if_pos Option.isSome_some, get?, lookup_replace, held]
    rfl
  | none =>
    replace held : disk.files.lookup location = none := held
    rw [if_neg (by decide), get?, List.lookup_append, lookup_cons_eq]
    by_cases same : other = location
    · rw [if_pos same, if_pos same, same, held, Option.none_or]
    · rw [if_neg same, if_neg same, List.lookup_nil, Option.or_none]
      rfl

theorem Disk.write_eq_ok :
    disk.write path content = .ok next ↔
      ∃ location, Reaches path location ∧ next = disk.put location content := by
  rw [write]
  constructor
  · intro ok
    split at ok
    · cases ok
    · next sound =>
      cases target : Target.ofPath path with
      | folder => rw [target] at ok; cases ok
      | slashed => rw [target] at ok; cases ok
      | through => rw [target] at ok; cases ok
      | file location =>
        rw [target, writeTarget] at ok
        split at ok
        · cases ok
        · next short =>
          exact ⟨location, ⟨sound, target, by simpa using short⟩, (Except.ok.inj ok).symm⟩
  · rintro ⟨location, reaches, rfl⟩
    rw [reaches.sound, reaches.file]
    exact if_neg (by simp [reaches.short])

theorem Reaches.read (reaches : Reaches path location) (held : disk.get? location = some content) :
    disk.read path = .ok content := by
  rw [Disk.read, reaches.sound, reaches.file, Disk.readTarget]
  simp [reaches.short, held]

theorem lastTo_cons (target : Target) (written : String × String)
    (texts : List (String × String)) :
    lastTo target (written :: texts) = (lastTo target texts).or
      (if Target.ofPath written.1 = target then some written.2 else none) := by
  rw [lastTo, lastTo, List.reverse_cons, List.find?_append, Option.map_or]
  congr 1
  by_cases same : Target.ofPath written.1 = target
  · simp [same]
  · simp [same]

theorem lastTo_of_mem {written : String × String} (inside : written ∈ texts) :
    ∃ last, lastTo (.ofPath written.1) texts = some last := by
  have found : (texts.reverse.find? fun other =>
      decide (Target.ofPath other.1 = Target.ofPath written.1)).isSome = true := by
    rw [List.find?_isSome]
    exact ⟨written, List.mem_reverse.mpr inside, by simp⟩
  obtain ⟨last, same⟩ := Option.isSome_iff_exists.mp found
  exact ⟨last.2, by rw [lastTo, same, Option.map_some]⟩

namespace Disk.Wrote

theorem nil (disk : Disk) : disk.Wrote [] disk where
  read := by simp
  get? := by simp [lastTo]

/-- A text that is written first stays unless a later one goes to the same file. -/
theorem cons (first : disk.write path (Wire.Utf8.ofString text) = .ok next)
    (others : next.Wrote texts after) : disk.Wrote ((path, text) :: texts) after := by
  obtain ⟨location, reaches, rfl⟩ := write_eq_ok.mp first
  have held (other : Location) : after.get? other =
      ((lastTo (.file other) ((path, text) :: texts)).map Wire.Utf8.ofString).or
        (disk.get? other) := by
    rw [others.get? other, get?_put, lastTo_cons, reaches.file, Option.map_or, Option.or_assoc]
    congr 1
    by_cases same : other = location
    · simp [same]
    · simp [same, Ne.symm same]
  refine ⟨List.forall_mem_cons.mpr ⟨?_, fun written inside => ?_⟩, held⟩
  · have inside : (path, text) ∈ (path, text) :: texts := .head texts
    obtain ⟨last, known⟩ := lastTo_of_mem inside
    refine ⟨last, known, reaches.read ?_⟩
    rw [held location, ← reaches.file, known]
    rfl
  · obtain ⟨last, known, reads⟩ := others.read written inside
    exact ⟨last, by rw [lastTo_cons, known, Option.some_or], reads⟩

end Disk.Wrote

end PacketSpec.Command
