import PacketSpec.Codec.Value
import PacketSpec.Proofs.Cell.Numerals
import PacketSpec.Proofs.Codegen.Units
import PacketSpec.Proofs.Names

/-! The conversions that are generated for an enumeration, read back from their tokens and run. Each
is a match whose first arm that fits a datum gives the result. One of them turns numbers into
variants, the other one turns variants into numbers, and they are written independently. -/
namespace PacketSpec.Codegen

/-- What generated code works on: a number, a variant, or a variant that holds a number. -/
inductive Datum where
  | number (n : Nat)
  | variant (type name : String)
  | holding (type name : String) (n : Nat)
  deriving DecidableEq, Repr

inductive Form where
  | literal (n : Nat)
  | name (word : String)
  | path (type name : String)
  | call (type name argument : String)
  deriving DecidableEq, Repr

structure Arm where
  pattern : Form
  body : Form
  deriving DecidableEq, Repr

def literal? (word : String) : Option Nat :=
  match word.toList with
  | '0' :: 'x' :: digits => some (Text.ofDigits 16 digits)
  | _ => none

def form? : Code → Option Form
  | [.word word] => some (((literal? word).map Form.literal).getD (.name word))
  | [.word type, .mark a, .mark b, .word name] =>
    if [a, b] = [':', ':'] then some (.path type name) else none
  | [.word type, .mark a, .mark b, .word name, .mark c, .word argument, .mark d] =>
    if [a, b, c, d] = [':', ':', '(', ')'] then some (.call type name argument) else none
  | _ => none

inductive HasArms : Code → List Arm → Prop
  | done : HasArms [] []
  | arm {left right rest : Code} {pattern body : Form} {arms : List Arm}
      (one : form? left = some pattern) (other : form? right = some body)
      (others : HasArms rest arms) :
      HasArms (left ++ code "=>" ++ right ++ code "," ++ rest) (⟨pattern, body⟩ :: arms)

def conversionDecl (argument result block : Code) : Code :=
  code "impl From<" ++ argument ++ code "> for" ++ result ++ braces (
    code "fn from(value:" ++ argument ++ code ") -> Self" ++ braces (
      code "match value" ++ braces block))

def Declares (text argument result : Code) (arms : List Arm) : Prop :=
  ∃ block, conversionDecl argument result block <:+: text ∧ HasArms block arms

def fits? : Form → Datum → Option (List (String × Nat))
  | .literal literal, .number n => if literal = n then some [] else none
  | .name word, .number n => some [(word, n)]
  | .path type name, .variant own given => if (type, name) = (own, given) then some [] else none
  | .call type name bound, .holding own given n =>
    if (type, name) = (own, given) then some [(bound, n)] else none
  | _, _ => none

def result? (bound : List (String × Nat)) : Form → Option Datum
  | .literal n => some (.number n)
  | .name word => (bound.lookup word).map .number
  | .path type name => some (.variant type name)
  | .call type name argument => (bound.lookup argument).map (.holding type name)

def convert? : List Arm → Datum → Option Datum
  | [], _ => none
  | arm :: rest, datum =>
    match fits? arm.pattern datum with
    | some bound => result? bound arm.body
    | none => convert? rest datum

def fromNumber (type : String) (members : List EnumMember) : List Arm :=
  members.map (fun m => ⟨.literal m.value, .path type (escaped m.id)⟩) ++
    [⟨.name "value", .call type "Unknown" "value"⟩]

def toNumber (type : String) (members : List EnumMember) : List Arm :=
  members.map (fun m => ⟨.path type (escaped m.id), .literal m.value⟩) ++
    [⟨.call type "Unknown" "value", .name "value"⟩]

def shown (type : String) : EnumValue → Datum
  | .named member => .variant type (escaped member.id)
  | .unknown value => .holding type "Unknown" value

theorem ofDigits_hexDigits (n : Nat) : Text.ofDigits 16 (Text.hexDigits n) = n :=
  Cell.ofDigits_toDigits (by decide) (by decide) n

theorem form?_hexNumber (n : Nat) : form? (hexNumber n) = some (.literal n) := by
  simp [hexNumber, form?, literal?, Text.hex, ofDigits_hexDigits]

/-- Arms of one form, one for each member, before others. -/
theorem hasArms_members {left right : EnumMember → Code} {pattern body : EnumMember → Form}
    {rest : Code} {arms : List Arm} (one : ∀ m, form? (left m) = some (pattern m))
    (other : ∀ m, form? (right m) = some (body m)) (last : HasArms rest arms)
    (members : List EnumMember) :
    HasArms ((members.flatMap fun m => left m ++ code "=>" ++ right m ++ code ",") ++ rest)
      (members.map (fun m => ⟨pattern m, body m⟩) ++ arms) := by
  induction members with
  | nil => exact last
  | cons m members ih =>
    rw [List.flatMap_cons, List.append_assoc]
    exact .arm (one m) (other m) ih

theorem hasArms_last {left right : Code} {pattern body : Form} (one : form? left = some pattern)
    (other : form? right = some body) :
    HasArms (left ++ code "=>" ++ right ++ code ",") [⟨pattern, body⟩] := by
  rw [← List.append_nil (left ++ code "=>" ++ right ++ code ",")]
  exact .arm one other .done

def pathCode (type name : String) : Code := [.word type] ++ code "::" ++ [.word name]

def unknownCode (type : String) : Code := pathCode type "Unknown" ++ parens [.word "value"]

def fromNumberBlock (type : String) (members : List EnumMember) : Code :=
  (members.flatMap fun m =>
    hexNumber m.value ++ code "=>" ++ pathCode type (escaped m.id) ++ code ",") ++
  ([.word "value"] ++ code "=>" ++ unknownCode type ++ code ",")

def toNumberBlock (type : String) (members : List EnumMember) : Code :=
  (members.flatMap fun m =>
    pathCode type (escaped m.id) ++ code "=>" ++ hexNumber m.value ++ code ",") ++
  (unknownCode type ++ code "=>" ++ [.word "value"] ++ code ",")

theorem hasArms_fromNumber (type : String) (members : List EnumMember) :
    HasArms (fromNumberBlock type members) (fromNumber type members) :=
  hasArms_members (fun m => form?_hexNumber m.value) (fun _ => rfl) (hasArms_last rfl rfl) members

theorem hasArms_toNumber (type : String) (members : List EnumMember) :
    HasArms (toNumberBlock type members) (toNumber type members) :=
  hasArms_members (fun _ => rfl) (fun m => form?_hexNumber m.value) (hasArms_last rfl rfl) members

/-- Both conversions are declared with an enumeration. -/
theorem enumDecl_declares {e : Enum} {decl : Code} (generated : enumDecl e = .ok decl) :
    Declares decl (code "u64") [.word (escaped e.id)] (fromNumber (escaped e.id) e.members) ∧
    Declares decl [.word (escaped e.id)] (code "u64") (toNumber (escaped e.id) e.members) := by
  simp only [enumDecl, bind_eq_ok, pure_eq_ok] at generated
  obtain ⟨name, named, members, listed, generated⟩ := generated
  obtain rfl := ident_eq_ok named
  obtain rfl := eq_map_of_idents listed
  -- What stands before the conversions does not matter.
  obtain ⟨front, generated⟩ : ∃ front, front ++ code "impl From<u64> for" ++ _ ++ braces _ ++
    code "impl From<" ++ _ ++ code "> for u64" ++ braces _ = decl := ⟨_, generated⟩
  have header : code "impl From<u64> for" = code "impl From<" ++ code "u64" ++ code "> for" := rfl
  have target : code "> for u64" = code "> for" ++ code "u64" := rfl
  have signature : code "fn from(value: u64) -> Self" =
      code "fn from(value:" ++ code "u64" ++ code ") -> Self" := rfl
  have binding : code "value =>" = [.word "value"] ++ code "=>" := rfl
  have unknown : code "::Unknown(value)," =
      code "::" ++ [.word "Unknown"] ++ parens [.word "value"] ++ code "," := rfl
  have held : code "::Unknown(value) => value," = code "::" ++ [.word "Unknown"] ++
      parens [.word "value"] ++ code "=>" ++ [.word "value"] ++ code "," := rfl
  have parts : decl = front ++
      conversionDecl (code "u64") [.word (escaped e.id)]
        (fromNumberBlock (escaped e.id) e.members) ++
      conversionDecl [.word (escaped e.id)] (code "u64")
        (toNumberBlock (escaped e.id) e.members) := by
    rw [← generated, header, target, signature, binding, unknown, held]
    simp only [conversionDecl, fromNumberBlock, toNumberBlock, unknownCode, pathCode,
      List.flatMap_map, List.append_assoc]
  constructor
  · exact ⟨_, ⟨front, _, parts.symm⟩, hasArms_fromNumber _ _⟩
  · exact ⟨_, ⟨_, [], (List.append_nil _).trans parts.symm⟩, hasArms_toNumber _ _⟩

theorem convert?_fromNumber (type : String) (e : Enum) (x : Nat) :
    convert? (fromNumber type e.members) (.number x) = some (shown type (e.ofNat x)) := by
  obtain ⟨key, id, members⟩ := e
  induction members with
  | nil => simp [fromNumber, convert?, fits?, result?, Enum.ofNat, shown]
  | cons m members ih =>
    simp only [fromNumber, Enum.ofNat] at ih ⊢
    by_cases same : m.value = x
    · simp [convert?, fits?, result?, same, shown]
    · simp [convert?, fits?, same, ih]

theorem convert?_toNumber_named {type : String} {members : List EnumMember} {m : EnumMember}
    (names : (members.map fun m => escaped m.id).Nodup) (member : m ∈ members) :
    convert? (toNumber type members) (.variant type (escaped m.id)) = some (.number m.value) := by
  induction members with
  | nil => cases member
  | cons first members ih =>
    obtain ⟨fresh, names⟩ := List.nodup_cons.mp names
    rcases List.mem_cons.mp member with rfl | later
    · simp [toNumber, convert?, fits?, result?]
    · have other : escaped first.id ≠ escaped m.id := fun same =>
        fresh (List.mem_map.mpr ⟨m, later, same.symm⟩)
      have found := ih names later
      rw [toNumber] at found
      simp [toNumber, convert?, fits?, other, found]

theorem convert?_toNumber_unknown (type : String) (members : List EnumMember) (x : Nat) :
    convert? (toNumber type members) (.holding type "Unknown" x) = some (.number x) := by
  induction members with
  | nil => simp [toNumber, convert?, fits?, result?]
  | cons m members ih =>
    rw [toNumber] at ih
    simp [toNumber, convert?, fits?, ih]

end PacketSpec.Codegen
