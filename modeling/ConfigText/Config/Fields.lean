import ConfigText.Config
import ConfigText.Field

/-!
Configurations from fields of any value. Marks that are empty and limits below one are refused
first, then every field has to fit its kind. The bracket is never given. It follows from the marks
before they are read, so a closing bracket that is given as bytes counts as none.
-/

namespace ConfigText

/-- Why fields make no configuration. -/
inductive ConfigFault
  | emptyOpener
  | emptyCloser
  /-- The limit, as text, is below one. -/
  | depthBelowOne (shown : Text)
  /-- The limit is of a kind that has no order. -/
  | depthUnordered (kind : Text)
  /-- The closer holds a value of a kind that no table takes as key. -/
  | closerNotKey (kind : Text)
  /-- The closer is a bracket and the opener is no text. -/
  | openerWithoutEnd (kind : Text)
  /-- The closer is a bracket and the opener is bytes, which end in no text. -/
  | openerOfBytes
  /-- Values that do not fit. -/
  | mismatched (complaints : List Complaint)
  deriving DecidableEq

def ConfigFault.message : ConfigFault → Text
  | emptyOpener => "Placeholder prefix must not be empty".toList
  | emptyCloser => "Placeholder suffix must not be empty".toList
  | depthBelowOne shown => "max_depth must be at least 1, got ".toList ++ shown
  | depthUnordered kind =>
    "'<' not supported between instances of '".toList ++ kind ++ "' and 'int'".toList
  | closerNotKey kind => "unhashable type: '".toList ++ kind ++ "'".toList
  | openerWithoutEnd kind =>
    "'".toList ++ kind ++ "' object has no attribute 'endswith'".toList
  | openerOfBytes => "endswith first arg must be bytes or a tuple of bytes, not str".toList
  | mismatched _ => []

/-- The fault is one of marks or limits, and not of values that fit no field. -/
def ConfigFault.refusesMarks : ConfigFault → Bool
  | emptyOpener | emptyCloser | depthBelowOne _ => true
  | _ => false

/-- The fields of a configuration that are given. -/
structure ConfigFields where
  opener : Option Value
  closer : Option Value
  separator : Option Value
  lenient : Option Value
  maxDepth : Option Value

namespace ConfigFields

/-- No field is given. -/
def none : ConfigFields := ⟨.none, .none, .none, .none, .none⟩

/-- The fields of a record, by their names. -/
def ofProperties (props : Properties) : ConfigFields where
  opener := props.find? (.text "prefix".toList)
  closer := props.find? (.text "suffix".toList)
  separator := props.find? (.text "separator".toList)
  lenient := props.find? (.text "ignore_unresolvable".toList)
  maxDepth := props.find? (.text "max_depth".toList)

/-- Fields with other fields written over them. -/
def override (fields overrides : ConfigFields) : ConfigFields where
  opener := overrides.opener.or fields.opener
  closer := overrides.closer.or fields.closer
  separator := overrides.separator.or fields.separator
  lenient := overrides.lenient.or fields.lenient
  maxDepth := overrides.maxDepth.or fields.maxDepth

end ConfigFields

namespace Config

/-- The fault of a limit. -/
def depthFault? (depth : Value) : Option ConfigFault :=
  match depth, depth.number? with
  | .null, _ => none
  | _, some (.inl n) => if n < 1 then some (.depthBelowOne depth.toText) else none
  | _, some (.inr x) => if x.belowOne then some (.depthBelowOne depth.toText) else none
  | _, none => some (.depthUnordered depth.kind)

/-- A limit without a fault is no text. -/
theorem text?_of_depthFault? {depth : Value} (h : depthFault? depth = none) :
    depth.text? = none := by
  cases depth <;> first | rfl | cases h

/-- The fault of marks from which no bracket follows. -/
def bracketFault? (opener closer : Value) : Option ConfigFault :=
  match closer.notKey?, closer.text?.bind openingBracket, opener with
  | some value, _, _ => some (.closerNotKey value.kind)
  | none, none, _ => none
  | none, some _, .text _ => none
  | none, some _, .styled _ _ => none
  | none, some _, .bytes _ _ => some .openerOfBytes
  | none, some _, opener => some (.openerWithoutEnd opener.kind)

/-- The bracket for an opener that is read and a closer that is not. -/
def bracketFor (opener : Text) (closer : Value) : Text :=
  closer.text?.elim opener (bracketOf opener)

theorem bracketFor_suffix (opener : Text) (closer : Value) :
    bracketFor opener closer <:+ opener := by
  unfold bracketFor
  cases closer.text? with
  | none => exact List.suffix_rfl
  | some t => exact bracketOf_suffix opener t

theorem bracketFor_ne_nil {opener : Text} (closer : Value) (h : opener ≠ []) :
    bracketFor opener closer ≠ [] := by
  unfold bracketFor
  cases closer.text? with
  | none => exact h
  | some t => exact bracketOf_ne_nil t h

/-- What is refused before any field is read. -/
def fault? (fields : ConfigFields) : Option ConfigFault :=
  let opener := fields.opener.getD .null
  let closer := fields.closer.getD .null
  if !opener.holds then some .emptyOpener
  else if !closer.holds then some .emptyCloser
  else (depthFault? (fields.maxDepth.getD .null)).or (bracketFault? opener closer)

/-- Nothing is refused if both marks hold something, and neither the limit nor the marks together
have a fault. -/
theorem fault?_eq_none_iff {fields : ConfigFields} :
    fault? fields = none ↔ (fields.opener.getD .null).holds = true ∧
      (fields.closer.getD .null).holds = true ∧ depthFault? (fields.maxDepth.getD .null) = none ∧
      bracketFault? (fields.opener.getD .null) (fields.closer.getD .null) = none := by
  unfold fault?
  by_cases hopener : (fields.opener.getD .null).holds = true
  · by_cases hcloser : (fields.closer.getD .null).holds = true
    · simp [hopener, hcloser]
    · simp [hopener, hcloser]
  · simp [hopener]

/-- The configuration with the given fields. Without a separator keys have no default, without
more ado placeholders without a value stay, and without a limit nesting has none. -/
def ofFields (fields : ConfigFields) : Except ConfigFault Config :=
  match fault? fields with
  | some fault => .error fault
  | none =>
    let opener := Field.named "prefix".toList (Field.text (fields.opener.getD .null))
    let closer := Field.named "suffix".toList (Field.text (fields.closer.getD .null))
    let separator :=
      Field.named "separator".toList (Field.textOrNull (fields.separator.getD .null))
    let lenient :=
      Field.named "ignore_unresolvable".toList (Field.bool (fields.lenient.getD (.bool true)))
    let maxDepth :=
      Field.named "max_depth".toList (Field.integerOrNull (fields.maxDepth.getD .null))
    let bracket := Field.named "simple_prefix".toList (Field.text (fields.opener.getD .null))
    match opener, closer, separator, lenient, maxDepth with
    | .ok opener, .ok closer, .ok separator, .ok lenient, .ok maxDepth =>
      if hopener : opener = [] then .error .emptyOpener
      else if hcloser : closer = [] then .error .emptyCloser
      else
        .ok {
          opener := opener
          closer := closer
          separator := separator
          lenient := lenient
          maxDepth := maxDepth.map Int.toNat
          bracket := bracketFor opener (fields.closer.getD .null)
          opener_ne := hopener
          closer_ne := hcloser
          bracket_ne := bracketFor_ne_nil _ hopener
          bracket_suffix := bracketFor_suffix _ _ }
    | _, _, _, _, _ =>
      .error (.mismatched (Field.complaints opener ++ Field.complaints closer
        ++ Field.complaints separator ++ Field.complaints lenient ++ Field.complaints maxDepth
        ++ Field.complaints bracket))

/-- The fields of a configuration are what the values that are given are read as. -/
theorem reads_of_ofFields {fields : ConfigFields} {c : Config} (h : ofFields fields = .ok c) :
    fault? fields = none ∧
    Field.text (fields.opener.getD .null) = .ok c.opener ∧
    Field.text (fields.closer.getD .null) = .ok c.closer ∧
    Field.textOrNull (fields.separator.getD .null) = .ok c.separator ∧
    Field.bool (fields.lenient.getD (.bool true)) = .ok c.lenient ∧
    c.bracket = bracketFor c.opener (fields.closer.getD .null) ∧
    ∃ limit, Field.integerOrNull (fields.maxDepth.getD .null) = .ok limit ∧
      c.maxDepth = limit.map Int.toNat := by
  unfold ofFields at h
  split at h
  · cases h
  next hfault =>
  dsimp only at h
  split at h
  · next opener closer separator lenient limit ho hc hs hl hd =>
    split at h
    · cases h
    split at h
    · cases h
    cases h
    exact ⟨hfault, Field.of_named ho, Field.of_named hc, Field.of_named hs, Field.of_named hl,
      rfl, limit, Field.of_named hd, rfl⟩
  · cases h

/-- The configuration that a value describes, which has to be a dictionary. -/
def ofValue : Value → Except ConfigFault Config
  | .dict entries => ofFields (.ofProperties ⟨entries⟩)
  | _ => .error (.mismatched [⟨.notRecord, []⟩])

/-- The fields of a configuration. -/
def toFields (c : Config) : ConfigFields where
  opener := some (.text c.opener)
  closer := some (.text c.closer)
  separator := some (c.separator.elim .null .text)
  lenient := some (.bool c.lenient)
  maxDepth := some (c.maxDepth.elim .null fun n => .int n)

end Config
end ConfigText
