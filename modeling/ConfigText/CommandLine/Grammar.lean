import ConfigText.Text.Digit
import ConfigText.Text.Quoted

/-!
The grammar of arguments. Switches have long and short names, take a value or none, and may be cut
short as long as no other switch is meant; what is no switch goes to the slot for plain arguments
or is left over. Reading an argument list yields its uses in order, up to the first fault.
-/

namespace ConfigText.CommandLine

/-- A switch, by what it is for. -/
structure Switch (ι : Type) where
  purpose : ι
  names : List Text
  takesValue : Bool

/-- Where plain arguments go. -/
inductive Slot
  /-- A command, which takes all that follows. -/
  | command
  /-- At most one argument. -/
  | oneAtMost
  | nothing

structure Grammar (ι : Type) where
  switches : List (Switch ι)
  slot : Slot

/-- What an argument list makes use of. -/
inductive Use (ι : Type)
  | flag (switch : Switch ι)
  /-- A switch with its value; two dashes attached to a switch are dropped and leave none. -/
  | value (switch : Switch ι) (value : Option Text)
  /-- Arguments in the slot. -/
  | slot (arguments : List Text)

/-- An argument list as read: its uses, the fault where reading stops, and what is left over. -/
structure Reading (ι : Type) where
  uses : List (Use ι)
  fault : Option Text
  extras : List Text

/-- The names of a switch in one text. -/
def Switch.label {ι : Type} (switch : Switch ι) : Text := Text.join ['/'] switch.names

/-- What is said of a switch. -/
def Switch.complaint {ι : Type} (switch : Switch ι) (message : Text) : Text :=
  "argument ".toList ++ switch.label ++ ": ".toList ++ message

/-- What an argument is. -/
inductive Role (ι : Type)
  | plain
  /-- Two dashes, behind which every argument is plain. -/
  | dashes
  /-- A switch, perhaps with a value attached to it. -/
  | switch (switch : Switch ι) (name : Text) (attached : Option Text)
  /-- It looks like a switch, and there is none. -/
  | unknown

def dash : Char := '-'

def twoDashes : Text := [dash, dash]

/-- A minus sign and digits, perhaps with a point among them and a line break behind. -/
def isNegativeNumber (argument : Text) : Bool :=
  match argument with
  | '-' :: body =>
    let body := if body.getLast? = some '\n' then body.dropLast else body
    let whole := body.takeWhile Text.isDecimal
    match body.dropWhile Text.isDecimal with
    | [] => !whole.isEmpty
    | '.' :: fraction => !fraction.isEmpty && fraction.all Text.isDecimal
    | _ => false
  | _ => false

namespace Grammar

variable {ι : Type} (grammar : Grammar ι)

/-- Every name with its switch, in the order of declaration. -/
def named : List (Text × Switch ι) :=
  grammar.switches.flatMap fun switch => switch.names.map (·, switch)

def switch? (name : Text) : Option (Switch ι) := grammar.named.lookup name

/-- The switches that an argument can be short for. -/
def candidates (argument : Text) : List (Text × Switch ι × Option Text) :=
  if twoDashes <+: argument then
    let (start, attached) :=
      match Text.cut ['='] argument with
      | some (start, value) => (start, some value)
      | none => (argument, none)
    grammar.named.filterMap fun (name, switch) =>
      if start <+: name then some (name, switch, attached) else none
  else
    grammar.named.filterMap fun (name, switch) =>
      if name = argument.take 2 then some (name, switch, some (argument.drop 2))
      else if argument <+: name then some (name, switch, none)
      else none

/-- What one argument is, or what is wrong with it. -/
def roleOf (argument : Text) : Except Text (Role ι) :=
  match argument with
  | [] => .ok .plain
  | c :: more =>
    if c ≠ dash then .ok .plain
    else
      match grammar.switch? argument with
      | some switch => .ok (.switch switch argument none)
      | none =>
        if more = [] then .ok .plain
        else
          let byEquals :=
            (Text.cut ['='] argument).bind fun (name, value) =>
              (grammar.switch? name).map fun switch => Role.switch switch name (some value)
          match byEquals with
          | some role => .ok role
          | none =>
            match grammar.candidates argument with
            | [(name, switch, attached)] => .ok (.switch switch name attached)
            | [] =>
              if isNegativeNumber argument || argument.contains ' ' then .ok .plain
              else .ok .unknown
            | several =>
              .error ("ambiguous option: ".toList ++ argument ++ " could match ".toList
                ++ Text.join [',', ' '] (several.map Prod.fst))

/-- Arguments with what they are. -/
def roles : List Text → Except Text (List (Text × Role ι))
  | [] => .ok []
  | argument :: more =>
    if argument = twoDashes then .ok ((argument, .dashes) :: more.map (·, .plain))
    else do
      let role ← grammar.roleOf argument
      let rest ← roles more
      return (argument, role) :: rest

end Grammar

section

variable {ι : Type}

/-- Arguments with what they are. -/
abbrev WithRoles (ι : Type) := List (Text × Role ι)

def isPlain : Text × Role ι → Bool
  | (_, .plain) => true
  | _ => false

def isDashes : Text × Role ι → Bool
  | (_, .dashes) => true
  | _ => false

def isSwitch : Text × Role ι → Bool
  | (_, .switch ..) | (_, .unknown) => true
  | _ => false

/-- How many arguments the slot takes here; `none` where it does not match. -/
def Slot.count (slot : Slot) (arguments : WithRoles ι) : Option Nat :=
  let dashes := (arguments.takeWhile isDashes).length
  match slot with
  | .nothing => none
  | .command => if (arguments.drop dashes).head?.any isPlain then some arguments.length else none
  | .oneAtMost =>
    match arguments.drop dashes with
    | [] => some dashes
    | argument :: more =>
      if isPlain argument then some (dashes + 1 + (more.takeWhile isDashes).length)
      else some dashes

/-- The arguments that the slot keeps: a command keeps all, others lose two dashes. -/
def Slot.keep (slot : Slot) (arguments : List Text) : List Text :=
  match slot with
  | .command => arguments
  | _ => arguments.erase twoDashes

/-- What follows from a switch, with the number of further arguments that are used up. -/
structure Taken (ι : Type) where
  uses : List (Use ι)
  further : Nat

/-- A switch with nothing attached takes its value from the next argument. -/
def takeNext (next : WithRoles ι) (switch : Switch ι) : Except Text (Taken ι) :=
  if switch.takesValue then
    match next with
    | (value, .plain) :: _ => .ok ⟨[.value switch (some value)], 1⟩
    | _ => .error (switch.complaint "expected one argument".toList)
  else .ok ⟨[.flag switch], 0⟩

/-- A switch with something attached takes that as its value. Where a switch takes none and stands
behind a `single` dash, each letter attached is the name of one more switch. -/
def takeAttached (grammar : Grammar ι) (next : WithRoles ι) (single : Bool) (switch : Switch ι)
    (attached : Text) : Except Text (Taken ι) :=
  if switch.takesValue then .ok ⟨[.value switch ((some attached).filter (· != twoDashes))], 0⟩
  else
    let ignored : Except Text (Taken ι) :=
      .error (switch.complaint ("ignored explicit argument ".toList ++ Text.quoted attached))
    match attached with
    | [] => ignored
    | letter :: more =>
      match (grammar.switch? [dash, letter]).filter fun _ => single with
      | none => ignored
      | some following => do
        let taken ←
          match more with
          | [] => takeNext next following
          | letter :: more => takeAttached grammar next single following (letter :: more)
        return { taken with uses := .flag switch :: taken.uses }

/-- What follows from a switch. -/
def take (grammar : Grammar ι) (next : WithRoles ι) (switch : Switch ι) (name : Text)
    (attached : Option Text) : Except Text (Taken ι) :=
  match attached with
  | none => takeNext next switch
  | some value => takeAttached grammar next (!twoDashes.isPrefixOf name) switch value

/-- A reading with more in front. -/
def Reading.after (uses : List (Use ι)) (extras : List Text) (reading : Reading ι) : Reading ι :=
  { reading with uses := uses ++ reading.uses, extras := extras ++ reading.extras }

/-- Reads arguments with their roles, where `slot` is what is still free. Plain arguments in front
of a switch go to the slot as far as it takes them. -/
def readRoles (grammar : Grammar ι) : Nat → Slot → WithRoles ι → Reading ι
  | 0, _, arguments => ⟨[], none, arguments.map Prod.fst⟩
  | fuel + 1, slot, arguments =>
    match arguments with
    | (argument, .unknown) :: more =>
      (readRoles grammar fuel slot more).after [] [argument]
    | (_, .switch switch name attached) :: more =>
      match take grammar more switch name attached with
      | .error message => ⟨[], some message, []⟩
      | .ok taken =>
        (readRoles grammar fuel slot (more.drop taken.further)).after taken.uses []
    | _ =>
      match slot.count arguments with
      | some count =>
        let use := Use.slot (slot.keep ((arguments.take count).map Prod.fst))
        if arguments.any isSwitch || count < arguments.length then
          (readRoles grammar fuel .nothing (arguments.drop count)).after [use] []
        else ⟨[use], none, []⟩
      | none =>
        match arguments.span (!isSwitch ·) with
        | (plain, []) => ⟨[], none, plain.map Prod.fst⟩
        | (plain, rest) => (readRoles grammar fuel slot rest).after [] (plain.map Prod.fst)

/-- Reads an argument list. -/
def Grammar.read (grammar : Grammar ι) (arguments : List Text) : Reading ι :=
  match grammar.roles arguments with
  | .error message => ⟨[], some message, []⟩
  | .ok roles => readRoles grammar (2 * arguments.length + 1) grammar.slot roles

end

end ConfigText.CommandLine
