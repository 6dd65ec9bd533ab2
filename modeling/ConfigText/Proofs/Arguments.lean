import ConfigText.CommandLine.Invocation
import Mathlib

/-!
Arguments written from a text and properties, and the command that is read from them.
-/

namespace ConfigText.CommandLine

/-- The command with only a text, properties and perhaps the environment given. The settings stand
in for all else. -/
def ResolveCommand.ofSettings (settings : Settings) (text : Text) (given : List (Text × Text))
    (withEnvironment : Bool) : ResolveCommand where
  text := some text
  assignments := given.map some
  envFiles := []
  withEnvironment := withEnvironment
  strict := false
  maxDepth := settings.get .maxDepth
  marks := (MarksGiven.ofSettings settings).marks

def assignSwitch : Switch ResolvePurpose := valued .assign ["--set", "-s"]

def environmentSwitch : Switch ResolvePurpose := flag .environment ["--env"]

/-- A key and a value with an equals sign between. -/
def assigned (pair : Text × Text) : Text := pair.1 ++ '=' :: pair.2

/-- The argument that gives a property. -/
def assignArgument (pair : Text × Text) : Text := "--set=".toList ++ assigned pair

/-- The arguments that give properties, perhaps the environment, and a text, which may begin with a
dash, and nothing else. -/
def arguments (text : Text) (given : List (Text × Text)) (withEnvironment : Bool) : List Text :=
  given.map assignArgument ++ ((if withEnvironment then ["--env".toList] else [])
    ++ [twoDashes, text])

/-- What such arguments are. -/
def argumentRoles (text : Text) (given : List (Text × Text)) (withEnvironment : Bool) :
    WithRoles ResolvePurpose :=
  given.map (fun pair => (assignArgument pair,
      .switch assignSwitch "--set".toList (some (assigned pair))))
    ++ ((if withEnvironment then
          [("--env".toList, .switch environmentSwitch "--env".toList none)] else [])
      ++ [(twoDashes, .dashes), (text, .plain)])

/-- What they make use of. -/
def argumentUses (text : Text) (given : List (Text × Text)) (withEnvironment : Bool) :
    List (Use ResolvePurpose) :=
  given.map (fun pair => .value assignSwitch (some (assigned pair)))
    ++ ((if withEnvironment then [.flag environmentSwitch] else []) ++ [.slot [text]])

variable {given : List (Text × Text)} {text : Text} {withEnvironment : Bool}

/-! ### What single arguments are -/

lemma roleOf_assign (pair : Text × Text) :
    resolveGrammar.roleOf (assignArgument pair)
      = .ok (.switch assignSwitch "--set".toList (some (assigned pair))) := by
  rfl

lemma assignArgument_ne (pair : Text × Text) : assignArgument pair ≠ twoDashes := nofun

lemma assigned_ne (pair : Text × Text) : assigned pair ≠ twoDashes := by
  intro h
  have hmem : '=' ∈ twoDashes := h ▸ List.mem_append_right _ List.mem_cons_self
  exact absurd hmem (by decide)

lemma take_assign (next : WithRoles ResolvePurpose) (pair : Text × Text) :
    take resolveGrammar next assignSwitch "--set".toList (some (assigned pair))
      = .ok ⟨[.value assignSwitch (some (assigned pair))], 0⟩ := by
  have htakes : assignSwitch.takesValue = true := rfl
  rw [take, takeAttached, if_pos htakes,
    Option.filter_some_pos (p := (· != twoDashes)) (bne_iff_ne.2 (assigned_ne pair))]

lemma cut_equals {key : Text} (h : '=' ∉ key) (value : Text) :
    Text.cut ['='] (key ++ '=' :: value) = some (key, value) := by
  induction key with
  | nil => simp [Text.cut]
  | cons c more ih =>
    rw [List.mem_cons, not_or] at h
    rw [List.cons_append, Text.cut, if_neg (by simpa using h.1), ih h.2]
    rfl

lemma assignment_assigned {ι : Type} (switch : Switch ι) {pair : Text × Text}
    (h : pair.1 ≠ [] ∧ '=' ∉ pair.1) : assignment switch (assigned pair) = .ok pair := by
  obtain ⟨key, value⟩ := pair
  obtain ⟨c, more, rfl⟩ := List.exists_cons_of_ne_nil h.1
  rw [assignment, assigned, cut_equals h.2]

lemma standIn_of_text?_eq_none {ι : Type} (switch : Switch ι) {value : Value}
    (h : value.text? = none) : standIn switch value = .ok value := by
  rw [standIn, h]

/-! ### The list of arguments -/

lemma roles_arguments :
    resolveGrammar.roles (arguments text given withEnvironment)
      = .ok (argumentRoles text given withEnvironment) := by
  induction given with
  | nil => cases withEnvironment <;> rfl
  | cons pair more ih =>
    rw [arguments, List.map_cons, List.cons_append, Grammar.roles,
      if_neg (assignArgument_ne pair), roleOf_assign]
    exact congrArg (Except.map _) ih

lemma readRoles_arguments {fuel : ℕ} (hfuel : given.length + 2 ≤ fuel) :
    readRoles resolveGrammar fuel .oneAtMost (argumentRoles text given withEnvironment)
      = ⟨argumentUses text given withEnvironment, none, []⟩ := by
  induction given generalizing fuel with
  | nil =>
    obtain ⟨fuel, rfl⟩ := Nat.exists_eq_add_of_le' hfuel
    cases withEnvironment <;> rfl
  | cons pair more ih =>
    obtain ⟨fuel, rfl⟩ := Nat.exists_eq_add_of_le' (Nat.le_trans (Nat.le_add_left 1 _) hfuel)
    have hmore := @ih fuel (by rw [List.length_cons] at hfuel; omega)
    rw [argumentRoles] at hmore
    rw [argumentRoles, List.map_cons, List.cons_append, readRoles, take_assign]
    simp only [List.drop_zero]
    rw [hmore]
    rfl

lemma read_arguments :
    resolveGrammar.read (arguments text given withEnvironment)
      = ⟨argumentUses text given withEnvironment, none, []⟩ := by
  rw [Grammar.read, roles_arguments]
  refine readRoles_arguments ?_
  simp only [arguments, List.length_append, List.length_map, List.length_cons, List.length_nil]
  omega

lemma foldlM_assign {step : ResolveGiven → Use ResolvePurpose → Except Stop ResolveGiven}
    (hstep : ∀ pair ∈ given, ∀ state,
      step state (.value assignSwitch (some (assigned pair)))
        = .ok { state with assignments := state.assignments ++ [some pair] })
    (state : ResolveGiven) :
    (given.map fun pair => .value assignSwitch (some (assigned pair))).foldlM step state
      = .ok { state with assignments := state.assignments ++ given.map some } := by
  induction given generalizing state with
  | nil => rw [List.map_nil, List.map_nil, List.append_nil]; rfl
  | cons pair more ih =>
    rw [List.forall_mem_cons] at hstep
    rw [List.map_cons, List.foldlM_cons, hstep.1]
    refine (ih hstep.2 _).trans ?_
    rw [List.append_assoc, List.map_cons, List.singleton_append]

/-- The command is read back from its arguments, where a limit that is a text would be read as a
number. -/
lemma readResolve_arguments {settings : Settings}
    (hgiven : ∀ pair ∈ given, pair.1 ≠ [] ∧ '=' ∉ pair.1)
    (hdepth : (settings.get .maxDepth).text? = none) :
    readResolve settings (arguments text given withEnvironment)
      = .ok (.ofSettings settings text given withEnvironment, []) := by
  unfold readResolve
  simp only [read_arguments, follow, argumentUses, List.foldlM_append]
  rw [foldlM_assign, standIn_of_text?_eq_none _ hdepth]
  · cases withEnvironment <;> rfl
  · intro pair hpair state
    change (Option.mapM _ (some _) >>= _) = _
    rw [Option.mapM_some, assignment_assigned _ (hgiven pair hpair)]
    rfl

end ConfigText.CommandLine
