import PacketSpec.Size
import PacketSpec.Text.Basic

/-! The options on a command line. They may stand anywhere up to `--`. -/
namespace PacketSpec.Command

structure Options where
  version : Bool := false
  /-- The width of the window for narrow fields, if given. -/
  window : Option Nat := none
  arguments : List String := []
  deriving DecidableEq, Repr

inductive ValueError where
  | empty
  | invalidDigit
  | tooLarge
  | duplicate
  deriving DecidableEq, Repr

def ValueError.message : ValueError → String
  | .empty => "cannot parse integer from empty string"
  | .invalidDigit => "invalid digit found in string"
  | .tooLarge => "number too large to fit in target type"
  | .duplicate => "duplicate values provided"

inductive OptionError where
  | unrecognized (option : String)
  | noValue (option : String)
  | badValue (option value : String) (error : ValueError)
  | afterHelp
  deriving DecidableEq, Repr

def OptionError.message : OptionError → String
  | .unrecognized option => s!"Unrecognized argument: {option}\n"
  | .noValue option => s!"No value provided for option '{option}'.\n"
  | .badValue option value error =>
    s!"Error parsing option '{option}' with value '{value}': {error.message}\n"
  | .afterHelp => "Trailing arguments are not allowed after `help`."

/-- Reads on from a number whose digits so far are `n`. -/
def readDigits (n : Nat) : List Char → Except ValueError Nat
  | [] => .ok n
  | c :: rest =>
    if !c.isDigit then .error .invalidDigit
    else
      let n := n * 10 + Text.digitValue c
      if n < Size.bound then readDigits n rest else .error .tooLarge

/-- A size in decimal digits, a plus sign before them if any. -/
def readSize (text : String) : Except ValueError Nat :=
  match text.toList with
  | [] => .error .empty
  | ['+'] => .error .invalidDigit
  | '+' :: digits => readDigits 0 digits
  | digits => readDigits 0 digits

def windowOption : String := "--bitfield-window"

def Options.setWindow (options : Options) (value : String) : Except OptionError Options :=
  let failed (e : ValueError) : OptionError := .badValue windowOption value e
  if options.window.isSome then .error (failed .duplicate)
  else match readSize value with
    | .ok width => .ok { options with window := some width }
    | .error e => .error (failed e)

inductive Request where
  | help
  | options (options : Options)
  deriving DecidableEq, Repr

/-- Reads the rest of a command line: whether help has been asked for and whether `--` has ended
the options. -/
def Request.parseFrom (help ended : Bool) (options : Options) :
    List String → Except OptionError Request
  | [] => .ok (if help then .help else .options options)
  | argument :: rest =>
    if !ended && (argument == "--help" || argument == "help") then
      parseFrom true ended options rest
    else if !ended && Text.startsWith argument "-" then
      if argument == "--" then parseFrom help true options rest
      else if help then .error .afterHelp
      else if argument == "--version" then
        parseFrom help ended { options with version := true } rest
      else if argument == windowOption then
        match rest with
        | [] => .error (.noValue argument)
        | value :: rest =>
          match options.setWindow value with
          | .ok options => parseFrom help ended options rest
          | .error e => .error e
      else .error (.unrecognized argument)
    else parseFrom help ended { options with arguments := options.arguments ++ [argument] } rest

def Request.parse (arguments : List String) : Except OptionError Request :=
  parseFrom false false {} arguments

end PacketSpec.Command
