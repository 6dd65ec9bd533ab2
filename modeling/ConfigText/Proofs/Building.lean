import ConfigText.Config.Fields
import ConfigText.Proofs.Merging
import Mathlib

/-!
Building configurations from records of values.

A record is checked by what its fields hold, of whatever kind that is, and the bracket is written
among the fields before any of them is read. Reading may then turn a value into one of another
kind, and nothing is checked again. The marks and the limit that are read satisfy the check all the
same. The bracket need not be the one of the marks that are read: a closer given as bytes is no
bracket yet when the bracket is looked for. Built once more from its own fields, where the marks are
texts, a configuration has the bracket of its marks.
-/

namespace ConfigText

/-- What is kept of a record when all its fields are read. -/
structure ConfigRecord where
  opener : Text
  closer : Text
  separator : Option Text
  lenient : Bool
  maxDepth : Option ℤ
  bracket : Text
  deriving DecidableEq

namespace ConfigRecord

/-- The bracket for marks of any kind, before they are read: the partner of a closing bracket that
the opener ends in, else the whole opener. -/
def bracketFor (opener closer : Value) : Value :=
  match opener.text?, closer.text?.bind openingBracket with
  | some t, some bracket => if bracket <:+ t then .text bracket else opener
  | _, _ => opener

/-- The record with the bracket that follows from its marks, over one that is given, unless what the
fields hold is refused. -/
def check (props : Properties) : Except ConfigFault Properties :=
  let fields := ConfigFields.ofProperties props
  match Config.fault? fields with
  | some fault => .error fault
  | none =>
    .ok (props.insert (.text "simple_prefix".toList)
      (bracketFor (fields.opener.getD .null) (fields.closer.getD .null)))

/-- What the fields of a record are read as, the bracket like any other. -/
def read (props : Properties) : Except ConfigFault ConfigRecord :=
  let fields := ConfigFields.ofProperties props
  let given := props.find? (.text "simple_prefix".toList)
  let opener := Field.named "prefix".toList (Field.text (fields.opener.getD .null))
  let closer := Field.named "suffix".toList (Field.text (fields.closer.getD .null))
  let separator :=
    Field.named "separator".toList (Field.textOrNull (fields.separator.getD .null))
  let lenient :=
    Field.named "ignore_unresolvable".toList (Field.bool (fields.lenient.getD (.bool true)))
  let maxDepth :=
    Field.named "max_depth".toList (Field.integerOrNull (fields.maxDepth.getD .null))
  let bracket := Field.named "simple_prefix".toList (Field.text (given.getD (.text [])))
  match opener, closer, separator, lenient, maxDepth, bracket with
  | .ok opener, .ok closer, .ok separator, .ok lenient, .ok maxDepth, .ok bracket =>
    .ok ⟨opener, closer, separator, lenient, maxDepth, bracket⟩
  | _, _, _, _, _, _ =>
    .error (.mismatched (Field.complaints opener ++ Field.complaints closer
      ++ Field.complaints separator ++ Field.complaints lenient ++ Field.complaints maxDepth
      ++ Field.complaints bracket))

/-- The record that is built from the given values. -/
def ofProperties (props : Properties) : Except ConfigFault ConfigRecord := (check props).bind read

/-- Neither mark is empty, a limit is at least one, and the bracket is the one of the marks or the
whole opener. -/
structure Formed (r : ConfigRecord) : Prop where
  opener_ne : r.opener ≠ []
  closer_ne : r.closer ≠ []
  one_le : ∀ limit ∈ r.maxDepth, 1 ≤ limit
  bracket_eq : r.bracket = bracketOf r.opener r.closer ∨ r.bracket = r.opener

/-- Besides, the bracket is the one of the marks. -/
structure WellFormed (r : ConfigRecord) : Prop extends Formed r where
  bracket_eq_bracketOf : r.bracket = bracketOf r.opener r.closer

/-- Fields that are read as those of the record, where the closer is given as some value. The
bracket is none of them. -/
def givenWith (r : ConfigRecord) (closer : Value) : Properties where
  entries :=
    [(.text "prefix".toList, .text r.opener),
     (.text "suffix".toList, closer),
     (.text "separator".toList, r.separator.elim .null .text),
     (.text "ignore_unresolvable".toList, .bool r.lenient),
     (.text "max_depth".toList, r.maxDepth.elim .null .int)]

/-- The fields from which it is built again. -/
def given (r : ConfigRecord) : Properties := r.givenWith (.text r.closer)

/-- The record with the bracket of its marks. -/
def rebuilt (r : ConfigRecord) : ConfigRecord := { r with bracket := bracketOf r.opener r.closer }

end ConfigRecord

/-- A configuration as the record that is kept of it. -/
def Config.toRecord (c : Config) : ConfigRecord :=
  ⟨c.opener, c.closer, c.separator, c.lenient, c.maxDepth.map Int.ofNat, c.bracket⟩

/-! ### What the check says of what is read -/

lemma Field.ofUtf8_of_ok {content : List UInt8} {mutable : Bool} {t : Text}
    (h : Field.text (.bytes content mutable) = .ok t) : Text.ofUtf8 content = .ok t := by
  change (Text.ofUtf8 content).mapError _ = _ at h
  cases hread : Text.ofUtf8 content with
  | ok read =>
    rw [hread] at h
    exact congrArg Except.ok (Except.ok.inj h)
  | error fault =>
    rw [hread] at h
    cases h

lemma Field.text_of_text? {value : Value} {t : Text} (h : value.text? = some t) :
    Field.text value = .ok t := by
  cases value with
  | text s => exact congrArg Except.ok (Option.some.inj h)
  | styled s style => exact congrArg Except.ok (Option.some.inj h)
  | _ => cases h

/-- What is read as a text is one, or bytes that write it. -/
lemma Field.text?_or_bytes {value : Value} {t : Text} (h : Field.text value = .ok t) :
    value.text? = some t ∨ ∃ content mutable, value = .bytes content mutable := by
  cases value with
  | text s => exact .inl (congrArg some (Except.ok.inj h))
  | styled s style => exact .inl (congrArg some (Except.ok.inj h))
  | bytes content mutable => exact .inr ⟨content, mutable, rfl⟩
  | _ => cases h

lemma Field.ne_nil_of_holds {value : Value} {t : Text} (h : Field.text value = .ok t)
    (hholds : value.holds = true) : t ≠ [] := by
  cases value with
  | text s =>
    obtain rfl : s = t := Except.ok.inj h
    simpa [Value.holds] using hholds
  | styled s style =>
    obtain rfl : s = t := Except.ok.inj h
    simpa [Value.holds] using hholds
  | bytes content mutable =>
    exact Text.ne_nil_of_ofUtf8 (ofUtf8_of_ok h) (by simpa [Value.holds] using hholds)
  | _ => cases h

lemma Field.holds_of_ne_nil {value : Value} {t : Text} (h : Field.text value = .ok t)
    (hne : t ≠ []) : value.holds = true := by
  cases value with
  | text s =>
    obtain rfl : s = t := Except.ok.inj h
    simpa [Value.holds] using hne
  | styled s style =>
    obtain rfl : s = t := Except.ok.inj h
    simpa [Value.holds] using hne
  | bytes content mutable =>
    cases content with
    | nil => exact absurd (Except.ok.inj (ofUtf8_of_ok h)).symm hne
    | cons byte more => rfl
  | _ => cases h

lemma Field.toInt?_of_wholeOf {x : Binary64} {n : ℤ} (h : Field.wholeOf x = .ok n) :
    x.toInt? = some n := by
  unfold wholeOf at h
  split at h
  · next hwhole =>
    split at h
    · rw [hwhole, Except.ok.inj h]
    · cases h
  · cases h
  · cases h

/-- A whole number that is not below one is at least one. -/
lemma Binary64.one_le_of_toInt? {x : Binary64} {n : ℤ} (h : x.toInt? = some n)
    (hx : x.belowOne = false) : 1 ≤ n := by
  cases x with
  | nan => cases h
  | infinite negative => cases h
  | finite negative digits scale =>
    rcases hfraction : scaleFraction 2 scale digits 1 with ⟨num, den⟩
    simp only [belowOne, hfraction, Bool.or_eq_false_iff, decide_eq_false_iff_not,
      Nat.not_lt] at hx
    obtain ⟨rfl, hle⟩ := hx
    have hden : 0 < den := by
      unfold scaleFraction at hfraction
      split at hfraction <;> obtain ⟨-, rfl⟩ := Prod.mk.inj hfraction
      · exact Nat.one_pos
      · exact Nat.mul_pos Nat.one_pos (Nat.pow_pos Nat.two_pos)
    have hquotient : 1 ≤ num / den := (Nat.one_le_div_iff hden).2 hle
    simp only [toInt?, hfraction, Bool.false_eq_true, if_false] at h
    split at h
    · have hn : ((num / den : ℕ) : ℤ) = n := Option.some.inj h
      omega
    · cases h

/-- A limit without a fault is at least one, whatever it is written as. -/
lemma Field.one_le_of_depthFault? {depth : Value} {limit : ℤ}
    (h : Config.depthFault? depth = none) (hread : Field.integerOrNull depth = .ok (some limit)) :
    1 ≤ limit := by
  cases depth with
  | null => cases hread
  | bool b =>
    cases b with
    | false => cases h
    | true =>
      cases hread
      exact le_rfl
  | int n =>
    cases hread
    have hnot : ¬limit < 1 := by simpa [Config.depthFault?, Value.number?] using h
    omega
  | float x =>
    have hwhole : wholeOf x = .ok limit := by
      change (wholeOf x).map some = .ok (some limit) at hread
      cases hw : wholeOf x with
      | ok n =>
        rw [hw] at hread
        cases hread
        rfl
      | error mismatch =>
        rw [hw] at hread
        cases hread
    have hnot : x.belowOne = false := by simpa [Config.depthFault?, Value.number?] using h
    exact Binary64.one_le_of_toInt? (toInt?_of_wholeOf hwhole) hnot
  | text t => cases h
  | styled t style => cases h
  | bytes content mutable => cases h
  | list items => cases h
  | tuple items => cases h
  | dict entries => cases h

/-- So a limit is a natural number. -/
lemma Field.toNat_of_depthFault? {depth : Value} {limit : Option ℤ}
    (h : Config.depthFault? depth = none) (hread : Field.integerOrNull depth = .ok limit) :
    (limit.map Int.toNat).map Int.ofNat = limit := by
  cases limit with
  | none => rfl
  | some limit =>
    have hle := one_le_of_depthFault? h hread
    exact congrArg some (Int.toNat_of_nonneg (by omega))

/-- A closer without a fault can be a key. -/
lemma Config.notKey?_of_bracketFault? {opener closer : Value}
    (h : bracketFault? opener closer = none) : closer.notKey? = none := by
  unfold bracketFault? at h
  cases hkey : closer.notKey? with
  | none => rfl
  | some value => simp [hkey] at h

/-- Where the closer is a bracket, an opener that is read and has no fault is a text. -/
lemma Config.text?_of_bracketFault? {opener closer : Value} {s bracket : Text}
    (h : bracketFault? opener closer = none) (ho : Field.text opener = .ok s)
    (hbracket : closer.text?.bind openingBracket = some bracket) : opener.text? = some s := by
  obtain htext | ⟨content, mutable, rfl⟩ := Field.text?_or_bytes ho
  · exact htext
  · simp [bracketFault?, notKey?_of_bracketFault? h, hbracket] at h

namespace ConfigRecord

variable {props : Properties} {opener closer : Value} {s t : Text}

/-- The bracket that is looked for before the opener is read is read as the one for the opener that
is read. -/
lemma text_bracketFor (hfault : Config.bracketFault? opener closer = none)
    (ho : Field.text opener = .ok s) :
    Field.text (bracketFor opener closer) = .ok (Config.bracketFor s closer) := by
  unfold bracketFor Config.bracketFor
  cases hcloser : closer.text? with
  | none => simpa using ho
  | some t =>
    cases hbracket : openingBracket t with
    | none => simpa [hbracket, bracketOf] using ho
    | some bracket =>
      have hopener : opener.text? = some s :=
        Config.text?_of_bracketFault? hfault ho (by simpa [hcloser] using hbracket)
      simp only [hopener, Option.bind_some, hbracket, Option.elim_some, bracketOf]
      split
      · rfl
      · exact ho

/-- The bracket does not fit where the opener does not. -/
lemma complaints_bracketFor (name : Text) :
    Field.complaints (Field.named name (Field.text (bracketFor opener closer))) =
      Field.complaints (Field.named name (Field.text opener)) := by
  unfold bracketFor
  cases hopener : opener.text? with
  | none => rfl
  | some s =>
    rw [Field.text_of_text? hopener]
    cases closer.text?.bind openingBracket with
    | none => rw [Field.text_of_text? hopener]
    | some bracket =>
      dsimp only
      split
      · rfl
      · rw [Field.text_of_text? hopener]

/-- The bracket that is written is none of the other fields. -/
lemma fields_insert (bracket : Value) :
    ConfigFields.ofProperties (props.insert (.text "simple_prefix".toList) bracket) =
      ConfigFields.ofProperties props := by
  have hother {name : Text} (h : name ≠ "simple_prefix".toList) :
      (props.insert (.text "simple_prefix".toList) bracket).find? (.text name) =
        props.find? (.text name) :=
    Properties.find?_insert_of_ne fun heq => h (Option.some.inj heq).symm
  unfold ConfigFields.ofProperties
  rw [hother, hother, hother, hother, hother] <;> decide

/-- What is built is what is kept of the configuration, and what is refused is refused alike. -/
theorem ofProperties_eq (props : Properties) :
    ofProperties props = (Config.ofFields (.ofProperties props)).map Config.toRecord := by
  rw [ofProperties, check, Config.ofFields]
  generalize hfields : ConfigFields.ofProperties props = fields
  cases hf : Config.fault? fields with
  | some fault => rfl
  | none =>
    obtain ⟨hopener, hcloser, hdepth, hbracket⟩ := Config.fault?_eq_none_iff.1 hf
    change read _ = _
    rw [read, fields_insert, Properties.find?_insert_self rfl, hfields]
    dsimp only [Option.getD_some]
    cases ho : Field.text (fields.opener.getD .null) with
    | error mismatch =>
      rw [complaints_bracketFor, ho]
      rfl
    | ok opener =>
      cases hc : Field.text (fields.closer.getD .null) with
      | error mismatch =>
        rw [complaints_bracketFor, ho]
        rfl
      | ok closer =>
        -- both marks are texts here, and they hold something
        have hmarks : opener ≠ [] ∧ closer ≠ [] :=
          ⟨Field.ne_nil_of_holds ho hopener, Field.ne_nil_of_holds hc hcloser⟩
        rw [text_bracketFor hbracket ho]
        cases Field.textOrNull (fields.separator.getD .null) with
        | error mismatch => rfl
        | ok separator =>
          cases Field.bool (fields.lenient.getD (.bool true)) with
          | error mismatch => rfl
          | ok lenient =>
            cases hd : Field.integerOrNull (fields.maxDepth.getD .null) with
            | error mismatch => rfl
            | ok limit =>
              simp only [Field.named, Except.mapError, dif_neg hmarks.1, dif_neg hmarks.2,
                Except.map, Config.toRecord, Field.toNat_of_depthFault? hdepth hd]

/-- The record is what the values are read as, and its bracket the one that is looked for before the
closer is read. -/
structure IsRead (fields : ConfigFields) (r : ConfigRecord) : Prop where
  fault : Config.fault? fields = none
  opener : Field.text (fields.opener.getD .null) = .ok r.opener
  closer : Field.text (fields.closer.getD .null) = .ok r.closer
  separator : Field.textOrNull (fields.separator.getD .null) = .ok r.separator
  lenient : Field.bool (fields.lenient.getD (.bool true)) = .ok r.lenient
  maxDepth : Field.integerOrNull (fields.maxDepth.getD .null) = .ok r.maxDepth
  bracket : r.bracket = Config.bracketFor r.opener (fields.closer.getD .null)

theorem ofProperties_eq_ok_iff {r : ConfigRecord} :
    ofProperties props = .ok r ↔ IsRead (.ofProperties props) r := by
  constructor
  · intro h
    rw [ofProperties_eq] at h
    cases hc : Config.ofFields (.ofProperties props) with
    | error fault =>
      rw [hc] at h
      cases h
    | ok c =>
      rw [hc] at h
      obtain rfl : c.toRecord = r := Except.ok.inj h
      obtain ⟨hfault, ho, hcl, hs, hl, hbracket, limit, hd, hmax⟩ := Config.reads_of_ofFields hc
      obtain ⟨-, -, hdepth, -⟩ := Config.fault?_eq_none_iff.1 hfault
      refine ⟨hfault, ho, hcl, hs, hl, ?_, hbracket⟩
      rw [hd, Config.toRecord, hmax, Field.toNat_of_depthFault? hdepth hd]
  · rintro ⟨hfault, ho, hcl, hs, hl, hd, hbracket⟩
    obtain ⟨-, -, -, hmarks⟩ := Config.fault?_eq_none_iff.1 hfault
    rw [ofProperties, check, hfault]
    change read _ = _
    rw [read, fields_insert, Properties.find?_insert_self rfl, Option.getD_some,
      text_bracketFor hmarks ho, ho, hcl, hs, hl, hd, ← hbracket]
    rfl

/-- A closer that is a text is looked at as it is read. One that is bytes is no bracket. -/
lemma IsRead.bracket_eq {fields : ConfigFields} {r : ConfigRecord} (h : IsRead fields r) :
    (fields.closer.getD .null).text? = some r.closer ∧ r.bracket = bracketOf r.opener r.closer ∨
      (∃ content, fields.closer = some (.bytes content false)) ∧ r.bracket = r.opener := by
  have hbracket := h.bracket
  obtain htext | ⟨content, mutable, hbytes⟩ := Field.text?_or_bytes h.closer
  · rw [Config.bracketFor, htext] at hbracket
    exact .inl ⟨htext, hbracket⟩
  · rw [hbytes] at hbracket
    obtain ⟨-, -, -, hmarks⟩ := Config.fault?_eq_none_iff.1 h.fault
    have hkey := Config.notKey?_of_bracketFault? hmarks
    refine .inr ⟨⟨content, ?_⟩, hbracket⟩
    cases hcloser : fields.closer with
    | none => simp [hcloser] at hbytes
    | some closer =>
      obtain rfl : closer = .bytes content mutable := by simpa [hcloser] using hbytes
      cases mutable with
      | false => rfl
      | true => simp [hcloser, Value.notKey?] at hkey

/-- What the check asks of the values holds of what they are read as. -/
lemma IsRead.formed {fields : ConfigFields} {r : ConfigRecord} (h : IsRead fields r) :
    r.Formed := by
  obtain ⟨hopener, hcloser, hdepth, -⟩ := Config.fault?_eq_none_iff.1 h.fault
  refine ⟨Field.ne_nil_of_holds h.opener hopener, Field.ne_nil_of_holds h.closer hcloser, ?_,
    h.bracket_eq.imp And.right And.right⟩
  intro limit hlimit
  have hread := h.maxDepth
  rw [Option.mem_def.1 hlimit] at hread
  exact Field.one_le_of_depthFault? hdepth hread

lemma depthFault?_of_one_le {limit : Option ℤ} (h : ∀ n ∈ limit, 1 ≤ n) :
    Config.depthFault? (limit.elim .null .int) = none := by
  cases limit with
  | none => rfl
  | some n =>
    have hle : ¬n < 1 := not_lt.2 (h n rfl)
    simp [Config.depthFault?, Value.number?, hle]

/-- The fields of a record pass the check, and are read as they are, however its closer is given. -/
lemma Formed.isRead_givenWith {r : ConfigRecord} (h : r.Formed) {closer : Value}
    (hread : Field.text closer = .ok r.closer) (hkey : closer.notKey? = none)
    (hbracket : r.bracket = Config.bracketFor r.opener closer) :
    IsRead (.ofProperties (r.givenWith closer)) r where
  fault := by
    refine Config.fault?_eq_none_iff.2 ⟨?_, ?_, depthFault?_of_one_le h.one_le, ?_⟩
    · change (Value.text r.opener).holds = true
      simpa [Value.holds] using h.opener_ne
    · exact Field.holds_of_ne_nil hread h.closer_ne
    · change Config.bracketFault? (.text r.opener) closer = none
      unfold Config.bracketFault?
      rw [hkey]
      cases closer.text?.bind openingBracket <;> rfl
  opener := rfl
  closer := hread
  separator := by
    change Field.textOrNull (r.separator.elim .null .text) = _
    cases r.separator <;> rfl
  lenient := rfl
  maxDepth := by
    change Field.integerOrNull (r.maxDepth.elim .null .int) = _
    cases r.maxDepth <;> rfl
  bracket := hbracket

lemma Formed.rebuilt {r : ConfigRecord} (h : r.Formed) : r.rebuilt.WellFormed :=
  ⟨⟨h.opener_ne, h.closer_ne, h.one_le, .inl rfl⟩, rfl⟩

lemma WellFormed.ofProperties_given {r : ConfigRecord} (h : r.WellFormed) :
    ofProperties r.given = .ok r :=
  ofProperties_eq_ok_iff.2 (h.toFormed.isRead_givenWith rfl rfl h.bracket_eq_bracketOf)

/-- Every bracket can be given as bytes. -/
lemma exists_bytes_of_openingBracket {closer bracket : Text}
    (h : openingBracket closer = some bracket) :
    ∃ content, Field.text (.bytes content false) = .ok closer := by
  unfold openingBracket at h
  split at h
  · exact ⟨[0x7D], by decide⟩
  · exact ⟨[0x5D], by decide⟩
  · exact ⟨[0x29], by decide⟩
  · cases h

/-- All that is formed like that is built. -/
lemma Formed.exists_ofProperties {r : ConfigRecord} (h : r.Formed) :
    ∃ props, ofProperties props = .ok r := by
  by_cases hwell : r.bracket = bracketOf r.opener r.closer
  · exact ⟨_, WellFormed.ofProperties_given ⟨h, hwell⟩⟩
  · have hopener : r.bracket = r.opener := h.bracket_eq.resolve_left hwell
    cases hbracket : openingBracket r.closer with
    | none => exact absurd (by rw [hopener, bracketOf, hbracket]) hwell
    | some bracket =>
      obtain ⟨content, hread⟩ := exists_bytes_of_openingBracket hbracket
      exact ⟨_, ofProperties_eq_ok_iff.2 (h.isRead_givenWith hread rfl hopener)⟩

lemma Formed.bracket_ne {r : ConfigRecord} (h : r.Formed) : r.bracket ≠ [] := by
  obtain hbracket | hbracket := h.bracket_eq
  · rw [hbracket]
    exact bracketOf_ne_nil r.closer h.opener_ne
  · rw [hbracket]
    exact h.opener_ne

lemma Formed.bracket_suffix {r : ConfigRecord} (h : r.Formed) : r.bracket <:+ r.opener := by
  obtain hbracket | hbracket := h.bracket_eq
  · rw [hbracket]
    exact bracketOf_suffix r.opener r.closer
  · rw [hbracket]

end ConfigRecord

/-! ### Building again -/

namespace Config

variable {c d : Config}

lemma toRecord_injective (h : c.toRecord = d.toRecord) : c = d := by
  obtain ⟨opener, closer, separator, lenient, maxDepth, bracket, _, _, _, _⟩ := c
  obtain ⟨opener', closer', separator', lenient', maxDepth', bracket', _, _, _, _⟩ := d
  simp only [toRecord, ConfigRecord.mk.injEq] at h
  obtain ⟨rfl, rfl, rfl, rfl, hmax, rfl⟩ := h
  obtain rfl : maxDepth = maxDepth' := Option.map_injective Int.ofNat_injective hmax
  rfl

/-- The fields of a configuration are those of its record. -/
lemma toFields_eq (c : Config) : c.toFields = .ofProperties c.toRecord.given := by
  obtain ⟨opener, closer, separator, lenient, maxDepth, _, _, _, _, _⟩ := c
  cases maxDepth <;> rfl

/-- A configuration is built again from its fields with the bracket of its marks. -/
lemma exists_ofFields_toFields (h : c.toRecord.Formed) :
    ∃ d, ofFields c.toFields = .ok d ∧ d.toRecord = c.toRecord.rebuilt := by
  have hrecord : ConfigRecord.ofProperties c.toRecord.given = .ok c.toRecord.rebuilt :=
    h.rebuilt.ofProperties_given
  rw [ConfigRecord.ofProperties_eq, ← toFields_eq] at hrecord
  cases hd : ofFields c.toFields with
  | error fault =>
    rw [hd] at hrecord
    cases hrecord
  | ok d =>
    rw [hd] at hrecord
    exact ⟨d, rfl, Except.ok.inj hrecord⟩

end Config

/-- **What is built has all but the bracket from its own marks.** Let a record give values of any
kinds under any names. Building a configuration from it is refused, or it gives marks that are not
empty, no limit or one that is at least one, and a bracket that is the one of the marks or else the
whole opener, whatever the record gives as bracket. So the bracket is not empty, and the opener ends
in it. The bracket is the one of the marks unless the closer is given as bytes that write a bracket
of which the opener ends in the partner. Built from its own fields, the configuration is the same
but for the bracket, which is then the one of the marks. And all that is formed like that is built
from some record. -/
theorem built_iff_formed (props : Properties) :
    ConfigRecord.ofProperties props =
      (Config.ofValue (.dict props.entries)).map Config.toRecord ∧
    (∀ r : ConfigRecord, ConfigRecord.ofProperties props = .ok r →
      r.Formed ∧ r.bracket ≠ [] ∧ r.bracket <:+ r.opener ∧
      (r.WellFormed ↔
        ¬((∃ content, props.find? (.text "suffix".toList) = some (.bytes content false)) ∧
          bracketOf r.opener r.closer ≠ r.opener))) ∧
    (∀ c : Config, Config.ofValue (.dict props.entries) = .ok c →
      ∃ d, Config.ofFields c.toFields = .ok d ∧ d.toRecord = c.toRecord.rebuilt ∧
        (d = c ↔ c.toRecord.WellFormed)) ∧
    ∀ r : ConfigRecord, r.Formed → ∃ given, ConfigRecord.ofProperties given = .ok r := by
  have hread {r : ConfigRecord} (h : ConfigRecord.ofProperties props = .ok r) :
      ConfigRecord.IsRead (.ofProperties props) r := ConfigRecord.ofProperties_eq_ok_iff.1 h
  refine ⟨ConfigRecord.ofProperties_eq props, fun r h => ?_, fun c h => ?_,
    fun r h => h.exists_ofProperties⟩
  · have hformed := (hread h).formed
    refine ⟨hformed, hformed.bracket_ne, hformed.bracket_suffix, ?_⟩
    constructor
    · rintro hwell ⟨⟨content, hbytes⟩, hne⟩
      obtain ⟨htext, -⟩ | ⟨-, hopener⟩ := (hread h).bracket_eq
      · change ((props.find? (.text "suffix".toList)).getD .null).text? = _ at htext
        rw [hbytes] at htext
        cases htext
      · exact hne (hwell.bracket_eq_bracketOf.symm.trans hopener)
    · intro hnot
      refine ⟨hformed, ?_⟩
      obtain ⟨-, hbracket⟩ | ⟨hbytes, hopener⟩ := (hread h).bracket_eq
      · exact hbracket
      · rw [hopener]
        exact (not_not.1 fun hne => hnot ⟨hbytes, hne⟩).symm
  · have hrecord : ConfigRecord.ofProperties props = .ok c.toRecord := by
      rw [ConfigRecord.ofProperties_eq]
      exact congrArg (Except.map Config.toRecord) h
    have hformed := (hread hrecord).formed
    obtain ⟨d, hd, hrebuilt⟩ := Config.exists_ofFields_toFields hformed
    refine ⟨d, hd, hrebuilt, ?_, fun hwell => ?_⟩
    · rintro rfl
      rw [hrebuilt]
      exact hformed.rebuilt
    · refine Config.toRecord_injective (hrebuilt.trans ?_)
      rw [ConfigRecord.rebuilt, ← hwell.bracket_eq_bracketOf]

/-- Braces, the limit as a truth value, the policy as a word, a bracket of another kind, and a name
that no field has. -/
def looseFields : Properties where
  entries :=
    [(.text "suffix".toList, .text ['}']),
     (.text "max_depth".toList, .bool true),
     (.text "simple_prefix".toList, .int 7),
     (.text "colour".toList, .list [.null]),
     (.text "ignore_unresolvable".toList, .text "Off".toList),
     (.text "prefix".toList, .text ['$', '{'])]

/-- The limit is read as one, the policy as strict, and the bracket is the one of the braces. -/
theorem looseFields_built :
    ConfigRecord.ofProperties looseFields = .ok ⟨['$', '{'], ['}'], none, false, some 1, ['{']⟩ ∧
    ConfigRecord.WellFormed ⟨['$', '{'], ['}'], none, false, some 1, ['{']⟩ := by
  have hbuilt : ConfigRecord.ofProperties looseFields =
      .ok ⟨['$', '{'], ['}'], none, false, some 1, ['{']⟩ := rfl
  refine ⟨hbuilt, ((built_iff_formed looseFields).2.1 _ hbuilt).2.2.2.2 ?_⟩
  rintro ⟨⟨content, hbytes⟩, -⟩
  cases hbytes

/-- Braces, where the closing one is given as bytes. -/
def byteCloser : Properties where
  entries :=
    [(.text "prefix".toList, .text ['$', '{']), (.text "suffix".toList, .bytes [0x7D] false)]

/-- The closer is read as a brace, the bracket is the whole opener, and what is built from the
fields of the configuration is another one. -/
theorem byteCloser_built :
    ConfigRecord.ofProperties byteCloser = .ok ⟨['$', '{'], ['}'], none, true, none, ['$', '{']⟩ ∧
    bracketOf ['$', '{'] ['}'] = ['{'] ∧
    ∃ c d, Config.ofValue (.dict byteCloser.entries) = .ok c ∧ Config.ofFields c.toFields = .ok d ∧
      c.bracket = ['$', '{'] ∧ d.bracket = ['{'] ∧ d ≠ c := by
  refine ⟨rfl, rfl, _, _, rfl, rfl, rfl, rfl, fun h => ?_⟩
  exact absurd (congrArg Config.bracket h) (by decide)

end ConfigText
