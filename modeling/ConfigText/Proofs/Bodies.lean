import ConfigText.Proofs.Sources
import ConfigText.Server
import Mathlib

/-!
Bodies that ask for the same.

A body may spell out what the settings have anyway. A member that is spelled out is read as what the
settings have, so both bodies ask for the same syntax, or they are refused with the same complaints.
What a complaint is about may then be the whole body. That is another one, but it can be sent
exactly if the one that omits the member can.
-/

namespace ConfigText

/-! ### Objects that are read -/

namespace Json

namespace Reader

lemma bind_eq_ok {α β : Type} {scan : Scan α} {more : α → Scan β} {b : β}
    (h : scan >>= more = .ok b) : ∃ a, scan = .ok a ∧ more a = .ok b := by
  cases scan with
  | ok a => exact ⟨a, rfl, h⟩
  | error stop => cases h

variable {start source rest : Text} {members : List (Text × Json)}

/-- No word stands for an object. -/
lemma wordValue?_ne_object : wordValue? source ≠ some (.object members, rest) := by
  intro h
  obtain ⟨pair, hpair, hword⟩ := List.exists_of_findSome?_eq_some h
  obtain ⟨_, -, hobject⟩ := Option.map_eq_some_iff.1 hword
  have hvalue : pair.2 = .object members := (Prod.mk.inj hobject).1
  simp only [List.mem_cons, List.not_mem_nil, or_false] at hpair
  rcases hpair with rfl | rfl | rfl | rfl | rfl | rfl <;> cases hvalue

lemma unsigned_ne_object {negative : Bool} :
    unsigned start negative source ≠ .ok (.object members, rest) := by
  intro h
  unfold unsigned at h
  split at h
  dsimp only at h
  split_ifs at h <;> cases h

/-- No name comes twice in an object. -/
lemma nodup_of_value {fuel : ℕ} (h : value fuel source = .ok (.object members, rest)) :
    (members.map Prod.fst).Nodup := by
  cases fuel with
  | zero => cases h
  | succ fuel =>
    unfold value at h
    split at h
    · obtain ⟨_, -, h⟩ := bind_eq_ok h
      cases h
    · split at h
      · cases h
        exact List.nodup_nil
      · obtain ⟨_, -, h⟩ := bind_eq_ok h
        cases h
        exact Table.nodup_keys_ofList _
    · split at h
      · cases h
      · obtain ⟨_, -, h⟩ := bind_eq_ok h
        cases h
    · split at h
      · next hword =>
        cases h
        exact absurd hword wordValue?_ne_object
      · split at h <;> exact absurd h unsigned_ne_object

end Reader

lemma nodup_of_read {source : Text} {members : List (Text × Json)}
    (h : read source = .ok (.object members)) : (members.map Prod.fst).Nodup := by
  unfold read at h
  cases hdocument : Reader.document source with
  | error stop => cases stop <;> simp [hdocument] at h
  | ok json =>
    obtain rfl : json = .object members := by simpa [hdocument] using h
    obtain ⟨⟨json, rest⟩, hvalue, hend⟩ := Reader.bind_eq_ok hdocument
    dsimp only at hend
    split at hend
    · cases hend
      exact Reader.nodup_of_value hvalue
    · cases hend

end Json

lemma Server.Body.nodup_of_members {body : List UInt8} {list : List (Text × Json)}
    (h : members body = .ok list) : (list.map Prod.fst).Nodup := by
  unfold members at h
  split at h
  · cases h
  · split at h
    · next hread =>
      cases h
      obtain ⟨source, -, hsource⟩ := Option.map_eq_some_iff.1 hread
      exact Json.nodup_of_read hsource
    · cases h
    · cases h
    · cases h
    · cases h

/-! ### What can be sent -/

namespace Value

/-- Either value can be sent, or neither for the same reason. -/
structure SentAlike (x y : Value) : Prop where
  encode : encodeFault? x.published = encodeFault? y.published
  finite : allFinite x.published = allFinite y.published

lemma SentAlike.refl (x : Value) : x.SentAlike x := ⟨rfl, rfl⟩

lemma sendFault?_eq {xs ys : List Value} (h : List.Forall₂ SentAlike xs ys) :
    sendFault? xs = sendFault? ys := by
  have hsame : encodeFaultIn? (xs.map published) = encodeFaultIn? (ys.map published) ∧
      allFiniteItems (xs.map published) = allFiniteItems (ys.map published) := by
    induction h with
    | nil => exact ⟨rfl, rfl⟩
    | cons hxy _ ih =>
      simp only [List.map_cons, encodeFaultIn?, allFiniteItems, hxy.encode, hxy.finite, ih.1, ih.2,
        and_self]
  simp only [sendFault?, hsame.1, hsame.2]

end Value

namespace Json

open Value

mutual

/-- What comes from JSON becomes JSON again. -/
lemma encodeFault?_published : ∀ json : Json, encodeFault? json.toValue.published = none
  | null | bool _ | int _ | float _ | text _ => rfl
  | array items => encodeFaultIn?_published items
  | object members => encodeFaultAmong?_published members

lemma encodeFaultIn?_published : ∀ items : List Json,
    encodeFaultIn? (publishedItems (toValues items)) = none
  | [] => rfl
  | item :: more => by
    rw [toValues, publishedItems, encodeFaultIn?, encodeFault?_published item,
      encodeFaultIn?_published more]
    rfl

lemma encodeFaultAmong?_published : ∀ members : List (Text × Json),
    encodeFaultAmong? (publishedEntries (toEntries members)) = none
  | [] => rfl
  | (name, json) :: more => by
    have hmore := encodeFaultAmong?_published more
    rw [toEntries, publishedEntries]
    split
    · exact hmore
    · rw [encodeFaultAmong?, encodeFault?_published json, hmore]
      rfl

end

/-- The numbers of an object that is sent are those of its members. -/
lemma allFiniteEntries_iff (members : List (Text × Json)) :
    allFiniteEntries (publishedEntries (toEntries members)) = true ↔
      ∀ name json, (name, json) ∈ members → isPrivate (.text name) = false →
        allFinite json.toValue.published = true := by
  induction members with
  | nil => simp [toEntries, publishedEntries, allFiniteEntries]
  | cons member more ih =>
    obtain ⟨name, json⟩ := member
    rw [toEntries, publishedEntries]
    cases hprivate : isPrivate (.text name) with
    | true =>
      rw [if_pos rfl, ih]
      constructor
      · intro h other json' hmem hshown
        obtain heq | hmem := List.mem_cons.1 hmem
        · obtain ⟨rfl, rfl⟩ := Prod.mk.inj heq
          cases hprivate.symm.trans hshown
        · exact h other json' hmem hshown
      · exact fun h other json' hmem => h other json' (List.mem_cons_of_mem _ hmem)
    | false =>
      rw [if_neg Bool.false_ne_true, allFiniteEntries, Bool.and_eq_true, ih]
      constructor
      · rintro ⟨hjson, hmore⟩ other json' hmem hshown
        obtain heq | hmem := List.mem_cons.1 hmem
        · obtain ⟨rfl, rfl⟩ := Prod.mk.inj heq
          simpa [allFinite] using hjson
        · exact hmore other json' hmem hshown
      · intro h
        refine ⟨?_, fun other json' hmem => h other json' (List.mem_cons_of_mem _ hmem)⟩
        simpa [allFinite] using h name json List.mem_cons_self hprivate

end Json

/-! ### The same with another style -/

namespace Value

/-- The value without a kind of its own, if it is a text. -/
def plain (value : Value) : Value := value.text?.elim value text

lemma plain_of_text? {value : Value} {t : Text} (h : value.text? = some t) :
    value.plain = text t := by
  rw [plain, h]
  rfl

end Value

namespace Server

variable {settings : Settings} {c : Config} {o o' : Override}

/-- Two requests ask for the same syntax, where the settings say what is not asked for. -/
structure Override.Agrees (settings : Settings) (c : Config) (o o' : Override) : Prop where
  opener : (o.opener.elim (settings.get .opener) .text).plain
    = (o'.opener.elim (settings.get .opener) .text).plain
  closer : (o.closer.elim (settings.get .closer) .text).plain
    = (o'.closer.elim (settings.get .closer) .text).plain
  separator : o.separator.getD c.separator = o'.separator.getD c.separator
  lenient : o.lenient.getD c.lenient = o'.lenient.getD c.lenient

/-- Complaints are the same, and what they are about can be sent in both cases or in none. -/
structure Objection.Alike (objection objection' : Objection) : Prop where
  complaint : objection.complaint = objection'.complaint
  subject : objection.subject.SentAlike objection'.subject

lemma Objection.Alike.refl (objection : Objection) : objection.Alike objection :=
  ⟨rfl, .refl _⟩

/-! ### Bodies that spell out what the settings have -/

namespace Body

/-- The member says what the settings have. A mark has to be a text there, and the policy can be
written in several ways. -/
def Says (settings : Settings) (c : Config) (name : Text) (json : Json) : Prop :=
  name = "prefix".toList ∧ (settings.get .opener).text?.map .text = some json ∨
  name = "suffix".toList ∧ (settings.get .closer).text?.map .text = some json ∨
  name = "separator".toList ∧ json = .ofText? c.separator ∨
  name = "ignore_unresolvable".toList ∧ boolOrNull json.toValue = .ok (some c.lenient)

/-- Nothing is asked for under the name. Null asks for nothing, but for the separator. -/
def Omits (members : List (Text × Json)) (name : Text) : Prop :=
  members.lookup name = none ∨ members.lookup name = some .null ∧ name ≠ "separator".toList

/-- The second body has the members of the first one, where some that are omitted may be spelled out
as the settings have them. -/
def SpellsOut (settings : Settings) (c : Config) (members more : List (Text × Json)) : Prop :=
  ∀ name, more.lookup name = members.lookup name ∨
    ∃ json, Says settings c name json ∧ Omits members name ∧ more.lookup name = some json

variable {members more : List (Text × Json)}

/-- What the settings have can be sent. -/
lemma Says.allFinite {name : Text} {json : Json} (h : Says settings c name json) :
    json.toValue.published.allFinite = true := by
  obtain ⟨-, htext⟩ | ⟨-, htext⟩ | ⟨-, rfl⟩ | ⟨-, hread⟩ := h
  · obtain ⟨t, -, rfl⟩ := Option.map_eq_some_iff.1 htext
    rfl
  · obtain ⟨t, -, rfl⟩ := Option.map_eq_some_iff.1 htext
    rfl
  · cases c.separator <;> rfl
  · cases json with
    | null | bool | int | text => rfl
    | float x =>
      cases x with
      | finite => rfl
      | infinite | nan => cases hread
    | array | object => cases hread

lemma Omits.allFinite {name : Text} {json : Json} (h : Omits members name)
    (hjson : members.lookup name = some json) : json.toValue.published.allFinite = true := by
  obtain hnone | ⟨hnull, -⟩ := h
  · cases hnone.symm.trans hjson
  · obtain rfl : json = .null := Option.some.inj (hjson.symm.trans hnull)
    rfl

/-- Both bodies can be sent, or none. -/
lemma SpellsOut.sentAlike (h : SpellsOut settings c members more)
    (hmembers : (members.map Prod.fst).Nodup) (hmore : (more.map Prod.fst).Nodup) :
    (Value.dict (Json.toEntries members)).SentAlike (.dict (Json.toEntries more)) where
  encode := by
    change Value.encodeFaultAmong? _ = Value.encodeFaultAmong? _
    rw [Json.encodeFaultAmong?_published, Json.encodeFaultAmong?_published]
  finite := by
    change Value.allFiniteEntries _ = Value.allFiniteEntries _
    rw [Bool.eq_iff_iff, Json.allFiniteEntries_iff, Json.allFiniteEntries_iff]
    simp only [← lookup_eq_some_iff_mem hmembers, ← lookup_eq_some_iff_mem hmore]
    refine forall_congr' fun name => ?_
    obtain hsame | ⟨said, hown, homits, hsaid⟩ := h name
    · rw [hsame]
    · constructor
      · intro _ json hjson _
        obtain rfl : said = json := Option.some.inj (hsaid.symm.trans hjson)
        exact hown.allFinite
      · exact fun _ json hjson _ => homits.allFinite hjson

/-- All else that a body says is the same. -/
lemma SpellsOut.lookup_eq (h : SpellsOut settings c members more) {name : Text}
    (hname : ∀ json, ¬Says settings c name json) : more.lookup name = members.lookup name := by
  obtain hsame | ⟨json, hjson, -⟩ := h name
  · exact hsame
  · exact absurd hjson (hname json)

/-! ### Parts that are read alike -/

/-- Both parts are refused alike, or both are read and what they are read as is related. -/
def ReadAlike {α : Type} (rel : α → α → Prop) (r r' : Read α) : Prop :=
  (∃ list list', r = .error list ∧ r' = .error list' ∧ List.Forall₂ Objection.Alike list list') ∨
  ∃ a a', r = .ok a ∧ r' = .ok a' ∧ rel a a'

namespace ReadAlike

variable {α : Type} {rel : α → α → Prop} {r r' : Read α}

lemma of_eq (h : ∀ a, rel a a) (heq : r' = r) : ReadAlike rel r r' := by
  subst heq
  cases r' with
  | ok a => exact .inr ⟨a, a, rfl, rfl, h a⟩
  | error list =>
    exact .inl ⟨list, list, rfl, rfl, List.forall₂_same.2 fun objection _ => .refl objection⟩

lemma objections (h : ReadAlike rel r r') :
    List.Forall₂ Objection.Alike (Body.objections r) (Body.objections r') := by
  obtain ⟨list, list', rfl, rfl, hlist⟩ | ⟨a, a', rfl, rfl, -⟩ := h
  · exact hlist
  · exact .nil

lemma map {β : Type} {rel' : β → β → Prop} {f : α → β} (h : ReadAlike rel r r')
    (hf : ∀ a a', rel a a' → rel' (f a) (f a')) : ReadAlike rel' (r.map f) (r'.map f) := by
  obtain ⟨list, list', rfl, rfl, hlist⟩ | ⟨a, a', rfl, rfl, ha⟩ := h
  · exact .inl ⟨list, list', rfl, rfl, hlist⟩
  · exact .inr ⟨f a, f a', rfl, rfl, hf a a' ha⟩

end ReadAlike

/-- Both parts, or all objections to them. -/
def both {α β : Type} (r : Read α) (s : Read β) : Read (α × β) :=
  match r, s with
  | .ok a, .ok b => .ok (a, b)
  | r, s => .error (objections r ++ objections s)

lemma ReadAlike.both {α β : Type} {rel : α → α → Prop} {rel' : β → β → Prop} {r r' : Read α}
    {s s' : Read β} (h : ReadAlike rel r r') (h' : ReadAlike rel' s s') :
    ReadAlike (fun p q => rel p.1 q.1 ∧ rel' p.2 q.2) (both r s) (both r' s') := by
  have hall := List.rel_append h.objections h'.objections
  obtain ⟨list, list', rfl, rfl, -⟩ | ⟨a, a', rfl, rfl, ha⟩ := h
  · exact .inl ⟨_, _, rfl, rfl, hall⟩
  obtain ⟨list, list', rfl, rfl, -⟩ | ⟨b, b', rfl, rfl, hb⟩ := h'
  · exact .inl ⟨_, _, rfl, rfl, hall⟩
  · exact .inr ⟨(a, b), (a', b'), rfl, rfl, ha, hb⟩

/-- A member says the same whether it is omitted or spelled out. -/
lemma optional_alike {α β : Type} (h : SpellsOut settings c members more) (name : String)
    (read : Value → Except Mismatch α) (get : Option α → β)
    (hown : ∀ json, Says settings c name.toList json →
      ∃ a, read json.toValue = .ok a ∧ get (some a) = get none)
    (hnull : name.toList ≠ "separator".toList → ∃ a, read .null = .ok a ∧ get (some a) = get none) :
    ReadAlike (fun r r' => get r = get r') (optional members name read)
      (optional more name read) := by
  obtain hsame | ⟨json, hjson, homits, hmore⟩ := h name.toList
  · exact .of_eq (fun _ => rfl) (by rw [optional, optional, hsame])
  · obtain ⟨a, hread, hget⟩ := hown json hjson
    have hspelled : optional more name read = .ok (some a) := by
      rw [optional, hmore]
      simp only [placed, hread]
      rfl
    obtain hnone | ⟨hnone, hne⟩ := homits
    · exact .inr ⟨none, some a, by rw [optional, hnone], hspelled, hget.symm⟩
    · obtain ⟨b, hb, hgetb⟩ := hnull hne
      have homitted : optional members name read = .ok (some b) := by
        rw [optional, hnone]
        simp only [placed, Json.toValue, hb]
        rfl
      exact .inr ⟨some b, some a, homitted, hspelled, hgetb.trans hget.symm⟩

/-- A mark says the same whether it is omitted or spelled out. -/
lemma mark_alike (h : SpellsOut settings c members more) (name : String) (setting : Setting)
    (hmark : ∀ json, Says settings c name.toList json →
      (settings.get setting).text?.map .text = some json) :
    ReadAlike (fun r r' => (r.join.elim (settings.get setting) .text).plain
        = (r'.join.elim (settings.get setting) .text).plain)
      (optional members name Field.textOrNull) (optional more name Field.textOrNull) := by
  refine optional_alike h name Field.textOrNull
    (fun r => (r.join.elim (settings.get setting) .text).plain) (fun json hjson => ?_)
    fun _ => ⟨none, rfl, rfl⟩
  obtain ⟨t, htext, rfl⟩ := Option.map_eq_some_iff.1 (hmark json hjson)
  exact ⟨some t, rfl, (Value.plain_of_text? htext).symm⟩

/-- The syntax that is asked for is made up of four members. -/
lemma override_eq (members : List (Text × Json)) :
    override members =
      (both (both (optional members "prefix" Field.textOrNull)
          (optional members "suffix" Field.textOrNull))
        (both (optional members "separator" Field.textOrNull)
          (optional members "ignore_unresolvable" boolOrNull))).map
      fun ((opener, closer), separator, lenient) =>
        ⟨opener.join, closer.join, separator, lenient.join⟩ := by
  unfold override
  generalize optional members "prefix" Field.textOrNull = opener
  generalize optional members "suffix" Field.textOrNull = closer
  generalize optional members "separator" Field.textOrNull = separator
  generalize optional members "ignore_unresolvable" boolOrNull = lenient
  cases opener <;> cases closer <;> cases separator <;> cases lenient <;>
    simp [both, objections, Except.map]

lemma override_alike (h : SpellsOut settings c members more) :
    ReadAlike (Override.Agrees settings c) (override members) (override more) := by
  have hopener := mark_alike h "prefix" .opener (by simp [Says])
  have hcloser := mark_alike h "suffix" .closer (by simp [Says])
  have hseparator := optional_alike h "separator" Field.textOrNull (fun r => r.getD c.separator)
    (fun json hjson => by
      obtain rfl : json = .ofText? c.separator := by simpa [Says] using hjson
      exact ⟨c.separator, by cases c.separator <;> rfl, rfl⟩) fun hne => absurd rfl hne
  have hlenient := optional_alike h "ignore_unresolvable" boolOrNull
    (fun r => r.join.getD c.lenient)
    (fun json hjson => ⟨some c.lenient, by simpa [Says] using hjson, rfl⟩) fun _ => ⟨none, rfl, rfl⟩
  rw [override_eq, override_eq]
  refine ((hopener.both hcloser).both (hseparator.both hlenient)).map ?_
  rintro _ _ ⟨⟨hopened, hclosed⟩, hseparated, hpolicy⟩
  exact ⟨hopened, hclosed, hseparated, hpolicy⟩

/-- If the text is missing this is said of the whole body. -/
lemma required_alike {α : Type} (h : SpellsOut settings c members more)
    (hmembers : (members.map Prod.fst).Nodup) (hmore : (more.map Prod.fst).Nodup) {name : String}
    (hname : ∀ json, ¬Says settings c name.toList json) (read : Value → Except Mismatch α) :
    ReadAlike Eq (required members name read) (required more name read) := by
  have hsame := h.lookup_eq hname
  cases hlookup : members.lookup name.toList with
  | some json => exact .of_eq (fun _ => rfl) (by simp only [required, hsame, hlookup])
  | none =>
    simp only [required, hsame, hlookup]
    exact .inl ⟨_, _, rfl, rfl, .cons ⟨rfl, h.sentAlike hmembers hmore⟩ .nil⟩

end Body

/-! ### Bodies that are read alike -/

/-- Both bodies are refused with the same complaints, or both are read and the requests are
related. -/
inductive ReadsAlike {α : Type} (rel : α → α → Prop) :
    Except BodyFault α → Except BodyFault α → Prop
  | refused {list list' : List Objection} (h : List.Forall₂ Objection.Alike list list') :
    ReadsAlike rel (.error (.objections list)) (.error (.objections list'))
  | accepted {request request' : α} (h : rel request request') :
    ReadsAlike rel (.ok request) (.ok request')

lemma Body.ReadAlike.reads {α : Type} {rel : α → α → Prop} {r r' : Body.Read α}
    (h : Body.ReadAlike rel r r') :
    ReadsAlike rel (r.mapError .objections) (r'.mapError .objections) := by
  obtain ⟨list, list', rfl, rfl, hlist⟩ | ⟨a, a', rfl, rfl, ha⟩ := h
  · exact .refused hlist
  · exact .accepted ha

lemma ReadsAlike.exists_ok_iff {α : Type} {rel : α → α → Prop} {r r' : Except BodyFault α}
    (h : ReadsAlike rel r r') : (∃ request, r = .ok request) ↔ ∃ request', r' = .ok request' := by
  cases h with
  | refused => simp
  | accepted => simp

/-- Complaints are told alike. -/
lemma refused_eq {list list' : List Objection} (h : List.Forall₂ Objection.Alike list list') :
    refused (.objections list) = refused (.objections list') := by
  have hsaid : (list.map fun objection => complaintJson objection.complaint)
      = list'.map fun objection => complaintJson objection.complaint := by
    induction h with
    | nil => rfl
    | cons halike _ ih =>
      rw [List.map_cons, List.map_cons, halike.complaint, ih]
  have hsent : List.Forall₂ Value.SentAlike (list.map Objection.subject)
      (list'.map Objection.subject) := by
    rw [List.forall₂_map_left_iff, List.forall₂_map_right_iff]
    exact h.imp fun _ _ halike => halike.subject
  simp only [refused, Value.sendFault?_eq hsent, hsaid]

/-! ### The two kinds of requests -/

variable {body body' : List UInt8} {members more : List (Text × Json)}

lemma read_parse_eq (hbody : Body.members body = .ok members) : ParseRequest.read body =
    ((Body.both (Body.override members) (Body.required members "text" Field.text)).map
      fun (overrides, text) => (⟨overrides, text⟩ : ParseRequest)).mapError .objections := by
  simp only [ParseRequest.read, hbody, bind, Except.bind]
  generalize Body.override members = overrides
  generalize Body.required members "text" Field.text = text
  cases overrides <;> cases text <;> rfl

lemma read_resolve_eq (hbody : Body.members body = .ok members) : ResolveRequest.read body =
    ((Body.both (Body.both (Body.override members) (Body.required members "text" Field.text))
        (Body.both (Body.properties members "properties")
          (Body.optional members "include_environment" Field.bool))).map
      fun ((overrides, text), properties, given) =>
        (⟨overrides, text, properties, given.getD false⟩ : ResolveRequest)).mapError
      .objections := by
  simp only [ResolveRequest.read, hbody, bind, Except.bind]
  generalize Body.override members = overrides
  generalize Body.required members "text" Field.text = text
  generalize Body.properties members "properties" = properties
  generalize Body.optional members "include_environment" Field.bool = given
  cases overrides <;> cases text <;> cases properties <;> cases given <;>
    simp [Body.both, Body.objections, Except.map, Except.mapError, throw, throwThe,
      MonadExceptOf.throw, pure, Except.pure]

section Alike

variable (hbody : Body.members body = .ok members) (hbody' : Body.members body' = .ok more)
  (h : Body.SpellsOut settings c members more)
include hbody hbody' h

lemma text_alike : Body.ReadAlike Eq (Body.required members "text" Field.text)
    (Body.required more "text" Field.text) :=
  Body.required_alike h (Body.nodup_of_members hbody) (Body.nodup_of_members hbody')
    (by simp [Body.Says]) Field.text

lemma read_parse_alike :
    ReadsAlike
      (fun request request' =>
        ∃ o', request.overrides.Agrees settings c o' ∧ request' = { request with overrides := o' })
      (ParseRequest.read body) (ParseRequest.read body') := by
  rw [read_parse_eq hbody, read_parse_eq hbody']
  refine (((Body.override_alike h).both (text_alike hbody hbody' h)).map ?_).reads
  rintro ⟨overrides, text⟩ ⟨overrides', _⟩ ⟨hagrees, rfl⟩
  exact ⟨overrides', hagrees, rfl⟩

lemma read_resolve_alike :
    ReadsAlike
      (fun request request' =>
        ∃ o', request.overrides.Agrees settings c o' ∧ request' = { request with overrides := o' })
      (ResolveRequest.read body) (ResolveRequest.read body') := by
  have hproperties : Body.ReadAlike Eq (Body.properties members "properties")
      (Body.properties more "properties") := by
    refine .of_eq (fun _ => rfl) ?_
    rw [Body.properties, Body.properties, h.lookup_eq (by simp [Body.Says])]
  have henvironment : Body.ReadAlike Eq
      (Body.optional members "include_environment" Field.bool)
      (Body.optional more "include_environment" Field.bool) := by
    refine .of_eq (fun _ => rfl) ?_
    rw [Body.optional, Body.optional, h.lookup_eq (by simp [Body.Says])]
  rw [read_resolve_eq hbody, read_resolve_eq hbody']
  refine ((((Body.override_alike h).both (text_alike hbody hbody' h)).both
    (hproperties.both henvironment)).map ?_).reads
  rintro ⟨⟨overrides, text⟩, properties, given⟩ ⟨⟨overrides', _⟩, _, _⟩
    ⟨⟨hagrees, rfl⟩, rfl, rfl⟩
  exact ⟨overrides', hagrees, rfl⟩

end Alike
end Server
end ConfigText
