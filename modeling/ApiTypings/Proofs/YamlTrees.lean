/-
What the JSON value of a YAML value is.

The conversion can fail for one reason only: a mapping, somewhere outside of keys, has a key
that is a collection or a tagged value and so has no text.  Where there is no such key, the JSON
value has the shape of the YAML value.  `SameShape` says what that means one kind of value after
the other, without any steps.  The one kind that is not passed on item by item is the mapping:
different keys, such as the number `200` and the text `200`, may have the same text, and then the
object has the text where it came first, and under it what came last.

In the other direction a JSON value is a YAML value as it stands, and converting gives it back.
-/
import Mathlib
import ApiTypings.Proofs.Decoding
import ApiTypings.Proofs.JsonText
import ApiTypings.Yaml.ToJson

namespace ApiTypings

/-! ### Fields that are added one after the other -/

namespace Json

/-- The fields with further ones added in order. -/
def insertFields (fields more : List (String × Json)) : List (String × Json) :=
  more.foldl (fun fields field => insertField field.1 field.2 fields) fields

/-- Keys stand where they came first. -/
theorem keys_insertFields (more : List (String × Json)) :
    (insertFields [] more).map Prod.fst = (more.map Prod.fst).eraseDups := by
  induction more using List.reverseRecOn with
  | nil => rfl
  | append_singleton more last ih =>
      rw [insertFields, List.foldl_append, List.foldl_cons, List.foldl_nil, keys_insertField,
        ← insertFields, ih, List.map_append, List.eraseDups_append]
      by_cases hold : last.1 ∈ more.map Prod.fst
      · have hnone : [last.1].removeAll (more.map Prod.fst) = [] := by
          simpa [List.removeAll] using hold
        rw [if_pos (List.mem_eraseDups.mpr hold), List.map_singleton, hnone]
        exact (List.append_nil _).symm
      · have hnew : [last.1].removeAll (more.map Prod.fst) = [last.1] := by
          simpa [List.removeAll] using hold
        rw [if_neg (mt List.mem_eraseDups.mp hold), List.map_singleton, hnew]
        rfl

theorem nodup_keys_insertFields {fields more : List (String × Json)}
    (h : (fields.map Prod.fst).Nodup) : ((insertFields fields more).map Prod.fst).Nodup := by
  induction more generalizing fields with
  | nil => exact h
  | cons field more ih => exact ih (nodup_keys_insertField h)

/-- Under a key stands what came last. -/
theorem lookup_insertFields (key : String) (more : List (String × Json)) :
    lookup key (insertFields [] more)
      = (more.reverse.find? fun field => field.1 = key).map Prod.snd := by
  induction more using List.reverseRecOn with
  | nil => rfl
  | append_singleton more last ih =>
      rw [insertFields, List.foldl_append, List.foldl_cons, List.foldl_nil, ← insertFields,
        List.reverse_concat]
      by_cases hkey : last.1 = key
      · rw [List.find?_cons_of_pos (by simpa using hkey), hkey, lookup_insertField_self]
        rfl
      · rw [List.find?_cons_of_neg (by simpa using hkey),
          lookup_insertField_other (Ne.symm hkey), ih]

theorem insertField_of_not_mem {key : String} {value : Json} {fields : List (String × Json)}
    (h : key ∉ fields.map Prod.fst) : insertField key value fields = fields ++ [(key, value)] := by
  induction fields with
  | nil => rfl
  | cons field fields ih =>
      obtain ⟨hkey, hrest⟩ := not_or.mp (mt List.mem_cons.mpr h)
      rw [insertField, if_neg (Ne.symm hkey), ih hrest]
      rfl

/-- Fields under new keys are added behind the others. -/
theorem insertFields_of_nodup {fields more : List (String × Json)}
    (h : ((fields ++ more).map Prod.fst).Nodup) : insertFields fields more = fields ++ more := by
  induction more generalizing fields with
  | nil => exact (List.append_nil _).symm
  | cons field more ih =>
      have hfresh : field.1 ∉ fields.map Prod.fst := by
        rw [List.map_append, List.map_cons] at h
        exact fun hmem => (List.nodup_append.mp h).2.2 _ hmem _ List.mem_cons_self rfl
      rw [insertFields, List.foldl_cons, insertField_of_not_mem hfresh, ← insertFields,
        ih (by simpa using h), List.append_assoc]
      rfl

/-- Fields are equal if their keys are and no key has different values in them. -/
theorem eq_of_keys {first second : List (String × Json)}
    (hkeys : first.map Prod.fst = second.map Prod.fst)
    (hvalues : ∀ key a b, (key, a) ∈ first → (key, b) ∈ second → a = b) : first = second := by
  induction first generalizing second with
  | nil => exact (List.map_eq_nil_iff.mp hkeys.symm).symm
  | cons field first ih =>
      match second, hkeys with
      | other :: second, hkeys =>
          obtain ⟨hkey, hrest⟩ := List.cons.inj hkeys
          have hvalue : field.2 = other.2 := by
            refine hvalues field.1 _ _ List.mem_cons_self ?_
            rw [hkey]
            exact List.mem_cons_self
          rw [Prod.ext hkey hvalue, ih hrest fun key a b ha hb =>
            hvalues key a b (List.mem_cons_of_mem _ ha) (List.mem_cons_of_mem _ hb)]

end Json

namespace Yaml.Value

variable {value : Value} {tree : Json}

/-! ### Values inside values -/

/-- The values directly inside a value; keys do not count. -/
def children : Value → List Value
  | sequence items => items
  | mapping entries => entries.map Prod.snd
  | tagged _ value => [value]
  | _ => []

theorem sizeOf_lt_of_mem_children {child : Value} (h : child ∈ value.children) :
    sizeOf child < sizeOf value := by
  cases value with
  | sequence items =>
      have := List.sizeOf_lt_of_mem (show child ∈ items from h)
      simp only [sequence.sizeOf_spec]
      omega
  | mapping entries =>
      obtain ⟨⟨key, value⟩, hmem, rfl⟩ := List.mem_map.mp h
      have := List.sizeOf_lt_of_mem hmem
      simp only [mapping.sizeOf_spec, Prod.mk.sizeOf_spec] at this ⊢
      omega
  | tagged tag value =>
      obtain rfl := List.mem_singleton.mp h
      simp only [tagged.sizeOf_spec]
      omega
  | _ => simp [children] at h

/-- What holds of a value whenever it holds of the values inside holds of all values. -/
theorem induction {P : Value → Prop} (step : ∀ value, (∀ child ∈ value.children, P child) → P value)
    (value : Value) : P value :=
  step value fun child _ => induction step child
termination_by value
decreasing_by exact sizeOf_lt_of_mem_children ‹_›

/-! ### Failing -/

/-- A collection or a tagged value. -/
def IsComposite : Value → Prop
  | sequence _ | mapping _ | tagged .. => True
  | _ => False

/-- A mapping has a key that is a collection or a tagged value: the value itself, or some mapping
inside it, in a sequence, under a key or below a tag. -/
inductive HasCompositeKey : Value → Prop
  | here {entries : List (Value × Value)} {entry : Value × Value} (hentry : entry ∈ entries)
      (hkey : entry.1.IsComposite) : HasCompositeKey (mapping entries)
  | inside {value child : Value} (hchild : child ∈ value.children) (h : HasCompositeKey child) :
      HasCompositeKey value

theorem keyText?_eq_none_iff {key : Value} : key.keyText? = none ↔ key.IsComposite := by
  cases key <;> simp [keyText?, IsComposite]

theorem itemsToJson?_eq_none_iff {items : List Value} :
    itemsToJson? items = none ↔ ∃ item ∈ items, item.toJson? = none := by
  induction items with
  | nil => simp [itemsToJson?]
  | cons item items ih =>
      rw [itemsToJson?, List.exists_mem_cons_iff, ← ih]
      cases item.toJson? with
      | none => simp
      | some tree => cases itemsToJson? items <;> simp

theorem fieldsToJson?_eq_none_iff {entries : List (Value × Value)}
    {fields : List (String × Json)} :
    fieldsToJson? fields entries = none
      ↔ ∃ entry ∈ entries, entry.1.keyText? = none ∨ entry.2.toJson? = none := by
  induction entries generalizing fields with
  | nil => simp [fieldsToJson?]
  | cons entry entries ih =>
      obtain ⟨key, value⟩ := entry
      rw [fieldsToJson?, List.exists_mem_cons_iff]
      cases key.keyText? with
      | none => simp
      | some text =>
          cases value.toJson? with
          | none => simp
          | some tree => simpa using ih

/-- **The conversion fails exactly if a key, at any depth, is a collection or tagged.** -/
theorem toJson?_eq_none_iff (value : Value) : value.toJson? = none ↔ value.HasCompositeKey := by
  induction value using Value.induction with
  | step value ih =>
      constructor
      · intro h
        cases value with
        | sequence items =>
            obtain ⟨item, hitem, hnone⟩ :=
              itemsToJson?_eq_none_iff.mp (Option.map_eq_none_iff.mp h)
            exact .inside hitem ((ih item hitem).mp hnone)
        | mapping entries =>
            obtain ⟨entry, hentry, hkey | hnone⟩ :=
              fieldsToJson?_eq_none_iff.mp (Option.map_eq_none_iff.mp h)
            · exact .here hentry (keyText?_eq_none_iff.mp hkey)
            · have hchild : entry.2 ∈ (mapping entries).children :=
                List.mem_map.mpr ⟨entry, hentry, rfl⟩
              exact .inside hchild ((ih entry.2 hchild).mp hnone)
        | tagged tag value =>
            have hchild : value ∈ (tagged tag value).children := List.mem_singleton.mpr rfl
            exact .inside hchild ((ih value hchild).mp h)
        | _ => cases h
      · intro h
        cases h with
        | here hentry hkey =>
            exact Option.map_eq_none_iff.mpr (fieldsToJson?_eq_none_iff.mpr
              ⟨_, hentry, Or.inl (keyText?_eq_none_iff.mpr hkey)⟩)
        | inside hchild h =>
            have hnone := (ih _ hchild).mpr h
            cases value with
            | sequence items =>
                exact Option.map_eq_none_iff.mpr
                  (itemsToJson?_eq_none_iff.mpr ⟨_, hchild, hnone⟩)
            | mapping entries =>
                obtain ⟨entry, hentry, rfl⟩ := List.mem_map.mp hchild
                exact Option.map_eq_none_iff.mpr
                  (fieldsToJson?_eq_none_iff.mpr ⟨entry, hentry, Or.inr hnone⟩)
            | tagged tag value =>
                obtain rfl := List.mem_singleton.mp hchild
                exact hnone
            | _ => cases hchild

/-! ### The shape -/

/-- The value of the last entry whose key has the text. -/
def lastUnder? (text : String) (entries : List (Value × Value)) : Option Value :=
  (entries.reverse.find? fun entry => entry.1.keyText? = some text).map Prod.snd

/-- The JSON value has the shape of the YAML value. -/
inductive SameShape : Value → Json → Prop
  | null : SameShape null .null
  | boolean (value : Bool) : SameShape (boolean value) (.boolean value)
  | integer (value : Int) : SameShape (number (.integer value)) (.number (.integer value))
  | decimal (value : Decimal) : SameShape (number (.decimal value)) (.number (.decimal value))
  | infinity (negative : Bool) : SameShape (number (.infinity negative)) .null
  | notANumber : SameShape (number .notANumber) .null
  | string (text : String) : SameShape (string text) (.string text)
  /-- the items in their order -/
  | sequence {items : List Value} {trees : List Json} (h : List.Forall₂ SameShape items trees) :
      SameShape (sequence items) (.array trees)
  /-- the texts of the keys where they come first, and under each what comes last -/
  | mapping {entries : List (Value × Value)} {texts : List String} {fields : List (String × Json)}
      (htexts : entries.map (fun entry => entry.1.keyText?) = texts.map some)
      (hkeys : fields.map Prod.fst = texts.eraseDups)
      (hvalues : ∀ text tree value, (text, tree) ∈ fields → lastUnder? text entries = some value →
        SameShape value tree) :
      SameShape (mapping entries) (.object fields)
  | tagged (tag : String) {value : Value} {tree : Json} (h : SameShape value tree) :
      SameShape (tagged tag value) tree

theorem itemsToJson?_eq_some_iff {items : List Value} {trees : List Json} :
    itemsToJson? items = some trees
      ↔ List.Forall₂ (fun item tree => item.toJson? = some tree) items trees := by
  induction items generalizing trees with
  | nil => simp [itemsToJson?, eq_comm]
  | cons item items ih =>
      rw [itemsToJson?, List.forall₂_cons_left_iff]
      simp only [← ih, bind, pure, Option.bind_eq_some_iff, Option.some.injEq]
      constructor
      · rintro ⟨tree, htree, rest, hrest, rfl⟩
        exact ⟨tree, rest, htree, hrest, rfl⟩
      · rintro ⟨tree, rest, htree, hrest, rfl⟩
        exact ⟨tree, htree, rest, hrest, rfl⟩

/-- An entry gives a field. -/
def Gives (entry : Value × Value) (field : String × Json) : Prop :=
  entry.1.keyText? = some field.1 ∧ entry.2.toJson? = some field.2

/-- First each entry gives a field, and then the fields are added one after the other. -/
theorem fieldsToJson?_eq_some_iff {entries : List (Value × Value)}
    {fields result : List (String × Json)} :
    fieldsToJson? fields entries = some result
      ↔ ∃ given, List.Forall₂ Gives entries given ∧ result = Json.insertFields fields given := by
  induction entries generalizing fields with
  | nil => simp [fieldsToJson?, Json.insertFields, eq_comm]
  | cons entry entries ih =>
      obtain ⟨key, value⟩ := entry
      rw [fieldsToJson?]
      simp only [bind, Option.bind_eq_some_iff, ih, List.forall₂_cons_left_iff]
      constructor
      · rintro ⟨text, htext, tree, htree, given, hgiven, rfl⟩
        exact ⟨(text, tree) :: given, ⟨(text, tree), given, ⟨htext, htree⟩, hgiven, rfl⟩, rfl⟩
      · rintro ⟨_, ⟨field, given, ⟨htext, htree⟩, hgiven, rfl⟩, rfl⟩
        exact ⟨field.1, htext, field.2, htree, given, hgiven, rfl⟩

theorem texts_of_gives {entries : List (Value × Value)} {given : List (String × Json)}
    (h : List.Forall₂ Gives entries given) :
    entries.map (fun entry => entry.1.keyText?) = (given.map Prod.fst).map some := by
  rw [List.map_map, ← List.forall₂_eq_eq_eq, List.forall₂_map_left_iff,
    List.forall₂_map_right_iff]
  exact h.imp fun _ _ hgives => hgives.1

/-- What is given last for a text is given by the last entry with the text. -/
theorem find?_of_gives {entries : List (Value × Value)} {given : List (String × Json)}
    (h : List.Forall₂ Gives entries given) (text : String) :
    Option.Rel Gives (entries.find? fun entry => entry.1.keyText? = some text)
      (given.find? fun field => field.1 = text) := by
  induction h with
  | nil => exact .none
  | @cons entry field _ _ hgives _ ih =>
      by_cases htext : field.1 = text
      · rw [List.find?_cons_of_pos (by simpa using hgives.1.trans (congrArg some htext)),
          List.find?_cons_of_pos (by simpa using htext)]
        exact .some hgives
      · have hentry : ¬entry.1.keyText? = some text := by
          rw [hgives.1, Option.some.injEq]
          exact htext
        rw [List.find?_cons_of_neg (by simpa using hentry),
          List.find?_cons_of_neg (by simpa using htext)]
        exact ih

theorem lastUnder?_of_gives {entries : List (Value × Value)} {given : List (String × Json)}
    (h : List.Forall₂ Gives entries given) {text : String} {tree : Json}
    (hmem : (text, tree) ∈ Json.insertFields [] given) :
    ∃ value, lastUnder? text entries = some value ∧ value.toJson? = some tree := by
  have hkeys : ((Json.insertFields [] given).map Prod.fst).Nodup :=
    Json.nodup_keys_insertFields List.nodup_nil
  have hlookup := Json.lookup_of_mem hkeys hmem
  rw [Json.lookup_insertFields] at hlookup
  obtain ⟨field, hfield, rfl⟩ := Option.map_eq_some_iff.mp hlookup
  have hrel := find?_of_gives (List.forall₂_reverse_iff.mpr h) text
  rw [hfield] at hrel
  cases hentry : entries.reverse.find? fun entry => entry.1.keyText? = some text with
  | none =>
      rw [hentry] at hrel
      cases hrel
  | some entry =>
      rw [hentry] at hrel
      obtain ⟨hgives⟩ := hrel
      exact ⟨entry.2, by rw [lastUnder?, hentry]; rfl, hgives.2⟩

theorem sameShape_of_toJson? (value : Value) :
    ∀ tree, value.toJson? = some tree → SameShape value tree := by
  induction value using Value.induction with
  | step value ih =>
      intro tree h
      cases value with
      | null =>
          cases h
          exact .null
      | boolean value =>
          cases h
          exact .boolean value
      | number value =>
          cases h
          cases value with
          | integer value => exact .integer value
          | decimal value => exact .decimal value
          | infinity negative => exact .infinity negative
          | notANumber => exact .notANumber
      | string text =>
          cases h
          exact .string text
      | sequence items =>
          obtain ⟨trees, htrees, rfl⟩ := Option.map_eq_some_iff.mp h
          refine .sequence ?_
          have hitems := itemsToJson?_eq_some_iff.mp htrees
          exact List.forall₂_iff_zip.mpr ⟨hitems.length_eq, fun hmem =>
            ih _ (List.of_mem_zip hmem).1 _ ((List.forall₂_iff_zip.mp hitems).2 hmem)⟩
      | mapping entries =>
          obtain ⟨fields, hfields, rfl⟩ := Option.map_eq_some_iff.mp h
          obtain ⟨given, hgiven, rfl⟩ := fieldsToJson?_eq_some_iff.mp hfields
          refine .mapping (texts_of_gives hgiven) (Json.keys_insertFields given) ?_
          intro text tree value hmem hlast
          obtain ⟨found, hfound, htree⟩ := lastUnder?_of_gives hgiven hmem
          rw [hlast] at hfound
          cases hfound
          refine ih value ?_ tree htree
          obtain ⟨entry, hentry, rfl⟩ := Option.map_eq_some_iff.mp hlast
          exact List.mem_map.mpr
            ⟨entry, List.mem_reverse.mp (List.mem_of_find?_eq_some hentry), rfl⟩
      | tagged tag value => exact .tagged tag (ih value (List.mem_singleton.mpr rfl) tree h)

/-- No other tree has the shape: the keys are given as a list, and each value by its entry. -/
theorem toJson?_of_sameShape (value : Value) :
    ∀ tree, ¬value.HasCompositeKey → SameShape value tree → value.toJson? = some tree := by
  induction value using Value.induction with
  | step value ih =>
      intro tree hkeys h
      have hinside : ∀ child ∈ value.children, ∀ tree, SameShape child tree →
          child.toJson? = some tree :=
        fun child hchild tree => ih child hchild tree fun hkey => hkeys (.inside hchild hkey)
      cases h with
      | @sequence items trees h =>
          have hitems : List.Forall₂ (fun item tree => item.toJson? = some tree) items trees :=
            List.forall₂_iff_zip.mpr ⟨h.length_eq, fun hmem =>
              hinside _ (List.of_mem_zip hmem).1 _ ((List.forall₂_iff_zip.mp h).2 hmem)⟩
          rw [toJson?, itemsToJson?_eq_some_iff.mpr hitems]
          rfl
      | @mapping entries texts fields htexts hfields hvalues =>
          obtain ⟨found, hfound⟩ :=
            Option.ne_none_iff_exists'.mp (mt (toJson?_eq_none_iff _).mp hkeys)
          obtain ⟨result, hresult, rfl⟩ := Option.map_eq_some_iff.mp hfound
          obtain ⟨given, hgiven, rfl⟩ := fieldsToJson?_eq_some_iff.mp hresult
          have hsame : texts = given.map Prod.fst :=
            List.map_injective_iff.mpr (Option.some_injective _)
              (htexts.symm.trans (texts_of_gives hgiven))
          rw [hfound]
          refine congrArg (fun fields => some (Json.object fields)) (Json.eq_of_keys ?_ ?_)
          · rw [Json.keys_insertFields, hfields, hsame]
          · intro text given tree hmem hfield
            obtain ⟨value, hlast, htree⟩ := lastUnder?_of_gives hgiven hmem
            obtain ⟨entry, hentry, rfl⟩ := Option.map_eq_some_iff.mp hlast
            have hchild : entry.2 ∈ (mapping entries).children := List.mem_map.mpr
              ⟨entry, List.mem_reverse.mp (List.mem_of_find?_eq_some hentry), rfl⟩
            have hother := hinside entry.2 hchild tree (hvalues text tree entry.2 hfield hlast)
            rw [htree, Option.some.injEq] at hother
            exact hother
      | @tagged tag value tree h => exact hinside value (List.mem_singleton.mpr rfl) tree h
      | _ => rfl

/-! ### JSON values as YAML values -/

mutual
/-- A JSON value as the YAML value that it is: the keys of a mapping are texts. -/
def ofJson : Json → Value
  | .null => null
  | .boolean value => boolean value
  | .number (.integer value) => number (.integer value)
  | .number (.decimal value) => number (.decimal value)
  | .string text => string text
  | .array items => sequence (ofItems items)
  | .object fields => mapping (ofFields fields)

def ofItems : List Json → List Value
  | [] => []
  | item :: rest => ofJson item :: ofItems rest

def ofFields : List (String × Json) → List (Value × Value)
  | [] => []
  | (key, value) :: rest => (string key, ofJson value) :: ofFields rest
end

theorem ofItems_eq_map (items : List Json) : ofItems items = items.map ofJson := by
  induction items with
  | nil => rfl
  | cons item rest ih => rw [ofItems, ih, List.map_cons]

theorem ofFields_eq_map (fields : List (String × Json)) :
    ofFields fields = fields.map fun field => (string field.1, ofJson field.2) := by
  induction fields with
  | nil => rfl
  | cons field rest ih => rw [ofFields, ih, List.map_cons]

/-- A JSON value comes back as it was, with its keys in their order. -/
theorem toJson?_ofJson (tree : Json) : tree.Distinct → (ofJson tree).toJson? = some tree := by
  induction tree using Json.induction with
  | step tree ih =>
      intro htree
      cases tree with
      | array items =>
          have hitems : List.Forall₂ (fun item tree => item.toJson? = some tree)
              (ofItems items) items := by
            rw [ofItems_eq_map, List.forall₂_map_left_iff, List.forall₂_same]
            exact fun item hitem => ih item hitem (Json.distinct_array.mp htree item hitem)
          rw [ofJson, toJson?, itemsToJson?_eq_some_iff.mpr hitems]
          rfl
      | object fields =>
          obtain ⟨hkeys, hvalues⟩ := Json.distinct_object.mp htree
          have hgives : List.Forall₂ Gives (ofFields fields) fields := by
            rw [ofFields_eq_map, List.forall₂_map_left_iff, List.forall₂_same]
            exact fun field hfield =>
              ⟨rfl, ih field.2 (List.mem_map.mpr ⟨field, hfield, rfl⟩) (hvalues field hfield)⟩
          have hsame : Json.insertFields [] fields = fields := Json.insertFields_of_nodup hkeys
          have hfields : fieldsToJson? [] (ofFields fields) = some fields :=
            fieldsToJson?_eq_some_iff.mpr ⟨fields, hgives, hsame.symm⟩
          rw [ofJson, toJson?, hfields]
          rfl
      | number value => cases value <;> rfl
      | _ => rfl

/-- **Conversion keeps the shape.** It fails exactly if a mapping somewhere has a collection or a
tagged value as a key. Otherwise the result is the one tree that has the shape of the value.  A JSON
value with distinct keys is converted to itself. -/
theorem conversion_faithful :
    (∀ value : Value, value.toJson? = none ↔ value.HasCompositeKey)
      ∧ (∀ (value : Value) (tree : Json),
          value.toJson? = some tree ↔ ¬value.HasCompositeKey ∧ SameShape value tree)
      ∧ ∀ tree : Json, tree.Distinct → (ofJson tree).toJson? = some tree := by
  refine ⟨toJson?_eq_none_iff, fun value tree => ⟨fun h => ⟨?_, sameShape_of_toJson? value tree h⟩,
    fun h => toJson?_of_sameShape value tree h.1 h.2⟩, toJson?_ofJson⟩
  rw [← toJson?_eq_none_iff, h]
  exact Option.some_ne_none tree

/-- Two keys with one text below a tag, a key that is no text, and a tree that is read back. -/
theorem conversion_faithful_codes :
    let value : Value := tagged "!codes" (mapping [(number (.integer 200), string "first"),
      (null, number (.infinity true)), (string "200", sequence [boolean true])])
    let tree : Json := .object [("200", .array [.boolean true]), ("null", .null)]
    (¬value.HasCompositeKey ∧ SameShape value tree)
      ∧ (mapping [(string "a", sequence [mapping [(sequence [], null)]])]).HasCompositeKey
      ∧ tree.Distinct ∧ (ofJson tree).toJson? = some tree := by
  intro value tree
  have htree : tree.Distinct := by
    refine Json.distinct_object.mpr ⟨by decide, ?_⟩
    simp [Json.distinct_array, Json.Distinct]
  exact ⟨(conversion_faithful.2.1 value tree).mp rfl, (conversion_faithful.1 _).mp rfl, htree,
    conversion_faithful.2.2 tree htree⟩

end Yaml.Value
end ApiTypings
