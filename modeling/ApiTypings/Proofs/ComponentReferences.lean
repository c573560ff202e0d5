/-
A reference to a component leads to its schema, and bears the name of its alias.

The key of a component is any text.  Written into a reference it is escaped, so that it is one
segment whatever slashes and tildes it holds.  Three ways then start from the key: the reference is
resolved in the tree, the schema is decoded together with the whole document, and a name is made for
the alias and, from the last segment alone, for the type of the reference.  All three agree.

Resolving takes the segment apart again, which gives the key back since unescaping undoes
escaping.  Decoding reaches the same schema because the tree has distinct keys: the record of the
document is read from entries in any order, and each of its parts comes from one of them.
-/
import Mathlib
import ApiTypings.ComponentAlias
import ApiTypings.OpenApi.Document
import ApiTypings.Proofs.Decoding
import ApiTypings.Proofs.Lowering

namespace ApiTypings

/-! ### Keys as segments -/

namespace Text

theorem splitOnChar_of_not_mem {separator : Char} {piece : List Char} (h : separator ∉ piece) :
    splitOnChar separator piece = [piece] := by
  induction piece with
  | nil => rfl
  | cons c piece ih =>
      obtain ⟨hc, hpiece⟩ := not_or.mp (mt List.mem_cons.mpr h)
      rw [splitOnChar, if_neg (Ne.symm hc), ih hpiece]

theorem splitOnChar_ne_nil (separator : Char) (text : List Char) :
    splitOnChar separator text ≠ [] := by
  cases text with
  | nil => exact List.cons_ne_nil _ _
  | cons c text =>
      rw [splitOnChar]
      split
      · exact List.cons_ne_nil _ _
      · split <;> exact List.cons_ne_nil _ _

/-- A text may be cut at one separator first, and then on both sides of it. -/
theorem splitOnChar_at (separator : Char) (first second : List Char) :
    splitOnChar separator (first ++ separator :: second)
      = splitOnChar separator first ++ splitOnChar separator second := by
  induction first with
  | nil =>
      show splitOnChar separator (separator :: second) = [] :: splitOnChar separator second
      rw [splitOnChar, if_pos rfl]
  | cons c first ih =>
      rw [List.cons_append, splitOnChar, splitOnChar, ih]
      by_cases hc : c = separator
      · rw [if_pos hc, if_pos hc]
        rfl
      · rw [if_neg hc, if_neg hc]
        cases hfirst : splitOnChar separator first with
        | nil => exact absurd hfirst (splitOnChar_ne_nil separator first)
        | cons piece pieces => rfl

/-- A piece without the separator is cut off at the first separator behind it. -/
theorem splitOnChar_append {separator : Char} {piece rest : List Char} (h : separator ∉ piece) :
    splitOnChar separator (piece ++ separator :: rest) = piece :: splitOnChar separator rest := by
  rw [splitOnChar_at, splitOnChar_of_not_mem h, List.singleton_append]

end Text

namespace Json

/-- A character of a key as it is written in a segment. -/
def escapeSegmentChar (c : Char) : List Char :=
  if c = '~' then ['~', '0'] else if c = '/' then ['~', '1'] else [c]

/-- A key as a segment of a reference. -/
def escapeSegment (key : List Char) : List Char := key.flatMap escapeSegmentChar

theorem unescapeSegment_cons {c : Char} (h : c ≠ '~') (rest : List Char) :
    unescapeSegment (c :: rest) = c :: unescapeSegment rest := by
  conv_lhs => unfold unescapeSegment
  split <;> simp_all

/-- **Unescaping undoes escaping.** -/
theorem unescapeSegment_escapeSegment (key : List Char) :
    unescapeSegment (escapeSegment key) = key := by
  induction key with
  | nil => rfl
  | cons c key ih =>
      rw [escapeSegment, List.flatMap_cons, ← escapeSegment, escapeSegmentChar]
      by_cases htilde : c = '~'
      · rw [if_pos htilde, htilde]
        exact congrArg ('~' :: ·) ih
      · by_cases hslash : c = '/'
        · rw [if_neg htilde, if_pos hslash, hslash]
          exact congrArg ('/' :: ·) ih
        · rw [if_neg htilde, if_neg hslash, List.singleton_append, unescapeSegment_cons htilde, ih]

/-- An escaped key is one segment. -/
theorem slash_not_mem_escapeSegment (key : List Char) : '/' ∉ escapeSegment key := by
  intro h
  obtain ⟨c, -, hc⟩ := List.mem_flatMap.mp h
  unfold escapeSegmentChar at hc
  split at hc
  · simp at hc
  · split at hc
    · simp at hc
    · rename_i hslash
      exact hslash (List.mem_singleton.mp hc).symm

/-- The reference to the schema of a component. -/
def schemaReference (key : String) : String :=
  String.ofList ("#/components/schemas/".toList ++ escapeSegment key.toList)

private theorem cut_before_key (key : List Char) :
    "#/components/schemas/".toList ++ key
      = ['#'] ++ '/' :: ("components".toList ++ '/' :: ("schemas".toList ++ '/' :: key)) := by
  simp

private theorem toList_schemaReference (key : String) :
    (schemaReference key).toList
      = ['#'] ++ '/' :: ("components".toList ++ '/' :: ("schemas".toList ++ '/' ::
          escapeSegment key.toList)) :=
  String.toList_ofList.trans (cut_before_key _)

private theorem splitOnChar_component (key : String) :
    Text.splitOnChar '/' ("components".toList ++ '/' :: ("schemas".toList ++ '/' ::
        escapeSegment key.toList))
      = ["components".toList, "schemas".toList, escapeSegment key.toList] := by
  rw [Text.splitOnChar_append (by decide), Text.splitOnChar_append (by decide),
    Text.splitOnChar_of_not_mem (slash_not_mem_escapeSegment _)]

theorem segments?_schemaReference (key : String) :
    segments? (schemaReference key) = some ["components", "schemas", key] := by
  have hprefix : Text.afterPrefix? ['#', '/'] (schemaReference key).toList
      = some ("components".toList ++ '/' :: ("schemas".toList ++ '/' ::
          escapeSegment key.toList)) := by
    rw [toList_schemaReference]
    rfl
  rw [segments?, hprefix]
  simp only [splitOnChar_component, List.map_cons, List.map_nil, unescapeSegment_escapeSegment,
    String.ofList_toList]
  rfl

/-- A walk along the keys of objects. -/
theorem resolve_schemaReference {fields components schemas : List (String × Json)} {key : String}
    {value : Json} (hcomponents : lookup "components" fields = some (object components))
    (hschemas : lookup "schemas" components = some (object schemas))
    (hkey : lookup key schemas = some value) :
    resolve (object fields) (schemaReference key) = .ok value := by
  rw [resolve, segments?_schemaReference]
  simp only [walk, child, hcomponents, hschemas, hkey]

end Json

/-- The name of a reference to a component is made from the key. -/
theorem referenceName_schemaReference (key : String) :
    referenceName (Json.schemaReference key) = Text.pascalCase key := by
  have hlast : lastSegment (Json.schemaReference key) = Json.escapeSegment key.toList := by
    rw [lastSegment, Json.toList_schemaReference, Text.splitOnChar_append (by decide),
      Json.splitOnChar_component]
    rfl
  rw [referenceName, hlast, Json.unescapeSegment_escapeSegment, String.ofList_toList]

/-! ### The schemas of a decoded document -/

namespace OpenApi

open Decoder

theorem reads_schemas : components.Reads "schemas" (entries schema) Components.schemas where
  found := ⟨_, _, rfl, fun _ _ => rfl⟩
  others := by
    simp only [components, List.forall_mem_singleton]
    exact fun h => absurd rfl h

theorem reads_components :
    description.Reads "components" components.decode Description.components where
  found := ⟨_, _, rfl, fun _ _ => rfl⟩
  others := by
    simp only [description, List.forall_mem_cons]
    refine ⟨fun _ => ?info, fun _ => ?servers, fun _ => ?paths, fun h => absurd rfl h, nofun⟩
    all_goals exact part_of_read fun _ _ => rfl

/-- **The schema of a component is decoded from what stands under its key.** -/
theorem Document.schema_of_ofJson {fields components schemas : List (String × Json)}
    {document : Document} (htree : (Json.object fields).Distinct)
    (hdocument : Document.ofJson (.object fields) = .ok document)
    (hcomponents : Json.lookup "components" fields = some (.object components))
    (hschemas : Json.lookup "schemas" components = some (.object schemas))
    {i : Nat} {key : String} {value : Json} (hi : schemas[i]? = some (key, value)) :
    ∃ schema, document.description.components.schemas[i]? = some (key, schema)
      ∧ OpenApi.schema value = .ok schema := by
  obtain ⟨-, hdecoded⟩ := Document.ofJson_eq_ok.mp hdocument
  have hinner := (Json.distinct_object.mp htree).2 _ (Json.mem_of_lookup hcomponents)
  have hread := reads_components.of_lookup (Json.distinct_object.mp htree).1 hcomponents hdecoded
  exact getElem?_entriesOf
    (reads_schemas.of_lookup (Json.distinct_object.mp hinner).1 hschemas hread) hi

end OpenApi

/-! ### The alias of a component -/

namespace ComponentAlias

open OpenApi

/-- Aliases stand in the order of the components. -/
theorem ofSchemas_eq_map (schemas : List (String × Schema)) :
    (ofSchemas schemas).1
      = schemas.map fun entry =>
          (Inspect.runAt (location entry.1) (ofSchema entry.1 entry.2)).1 := by
  induction schemas with
  | nil => rfl
  | cons entry schemas ih => rw [List.map_cons, ← ih, ofSchemas]

/-- The parts of an alias: the documentation of a schema that is no reference, the name made from
the key, and the type of the schema or `unknown`. -/
theorem runAt_ofSchema (place key : String) (schema : Schema) :
    (Inspect.runAt place (ofSchema key schema)).1
      = { docs := schema.inline?.bind docsOf
          name := Text.pascalCase key
          type := (TypeExpr.lowered false schema).getD .unknown } := by
  have happends : Inspect.Appends (ofSchema key schema) :=
    (TypeExpr.appends_ofSchema schema).bindPure _
  rw [happends.runAt_eq]
  rfl

end ComponentAlias

namespace OpenApi

/-- **The reference to a component leads to its schema, and bears the name of its alias.**  For each
key of `components.schemas`, in its place: the reference resolves to the value under the key, which
decodes to the schema that the document has there; the alias in that place has the documentation
and the type of this schema and a name made from the key; and the type of the reference is the name
of the alias. -/
theorem Document.schemaReference_agrees {fields components schemas : List (String × Json)}
    {document : Document} (htree : (Json.object fields).Distinct)
    (hdocument : Document.ofJson (.object fields) = .ok document)
    (hcomponents : Json.lookup "components" fields = some (.object components))
    (hschemas : Json.lookup "schemas" components = some (.object schemas))
    {i : Nat} {key : String} {value : Json} (hi : schemas[i]? = some (key, value)) :
    ∃ schema declared,
      Json.resolve document.tree (Json.schemaReference key) = .ok value
        ∧ OpenApi.schema value = .ok schema
        ∧ document.description.components.schemas[i]? = some (key, schema)
        ∧ (ComponentAlias.ofSchemas document.description.components.schemas).1[i]? = some declared
        ∧ declared = {
            docs := schema.inline?.bind ComponentAlias.docsOf
            name := Text.pascalCase key
            type := (TypeExpr.lowered false schema).getD .unknown }
        ∧ ∀ coerce, TypeExpr.ofSchema coerce (.reference (Json.schemaReference key))
            = pure (some (.name declared.name)) := by
  obtain ⟨schema, hschema, hdecoded⟩ :=
    Document.schema_of_ofJson htree hdocument hcomponents hschemas hi
  have hinner := (Json.distinct_object.mp htree).2 _ (Json.mem_of_lookup hcomponents)
  have hkeys := (Json.distinct_object.mp
    ((Json.distinct_object.mp hinner).2 _ (Json.mem_of_lookup hschemas))).1
  have hlookup : Json.lookup key schemas = some value :=
    Json.lookup_of_mem hkeys (List.mem_of_getElem? hi)
  refine ⟨schema, _, ?resolves, hdecoded, hschema, ?declared, rfl, fun coerce => ?named⟩
  case resolves =>
    rw [(Document.ofJson_eq_ok.mp hdocument).1]
    exact Json.resolve_schemaReference hcomponents hschemas hlookup
  case declared =>
    rw [ComponentAlias.ofSchemas_eq_map, List.getElem?_map, hschema, Option.map_some,
      ComponentAlias.runAt_ofSchema]
  case named => rw [TypeExpr.ofSchema, referenceName_schemaReference]

/-- A key with a slash and with a tilde that looks like an escape, behind another component.  The
alias has the heading, the text and the tags of the schema, and its two properties. -/
theorem Document.schemaReference_agrees_escaped :
    let value : Json := .object [("title", .string "Pet"), ("description", .string "At home."),
      ("deprecated", .boolean true), ("example", .string "rex"), ("default", .array []),
      ("type", .string "object"), ("required", .array [.string "id"]),
      ("properties", .object [("id", .object [("type", .string "string")]),
        ("tag", .object [("type", .string "boolean")])])]
    let schemas : List (String × Json) := [("pet", .object []), ("a/~01.b c", value)]
    let components : List (String × Json) := [("schemas", .object schemas)]
    let fields : List (String × Json) := [("components", .object components)]
    ∃ document schema declared, ((Json.object fields).Distinct
        ∧ Document.ofJson (.object fields) = .ok document
        ∧ Json.lookup "components" fields = some (.object components)
        ∧ Json.lookup "schemas" components = some (.object schemas)
        ∧ schemas[1]? = some ("a/~01.b c", value))
      ∧ Json.resolve document.tree "#/components/schemas/a~1~001.b c" = .ok value
      ∧ OpenApi.schema value = .ok schema
      ∧ document.description.components.schemas[1]? = some ("a/~01.b c", schema)
      ∧ (ComponentAlias.ofSchemas document.description.components.schemas).1[1]? = some declared
      ∧ declared = {
          docs := some {
            description := some "# Pet\nAt home."
            tags := [⟨"deprecated", none⟩, ⟨"example", some "\"rex\""⟩, ⟨"default", some "[]"⟩] }
          name := "A_01BC"
          type := .object [.property "id" .string,
            { name := "tag", type := .boolean, isOptional := true }] }
      ∧ ∀ coerce, TypeExpr.ofSchema coerce (.reference "#/components/schemas/a~1~001.b c")
          = pure (some (.name "A_01BC")) := by
  intro value schemas components fields
  have htree : (Json.object fields).Distinct := by
    simp [fields, components, schemas, value, Json.Distinct]
  obtain ⟨document, hdocument⟩ : ∃ document, Document.ofJson (.object fields) = .ok document :=
    ⟨_, rfl⟩
  obtain ⟨schema, declared, hresolve, hdecoded, hschema, halias, hdeclared, hnamed⟩ :=
    Document.schemaReference_agrees htree hdocument rfl rfl (i := 1) rfl
  have hreference : Json.schemaReference "a/~01.b c" = "#/components/schemas/a~1~001.b c" := by
    decide
  have hname : Text.pascalCase "a/~01.b c" = "A_01BC" := by decide +kernel
  rw [hreference] at hresolve hnamed
  refine ⟨document, schema, declared, ⟨htree, hdocument, rfl, rfl, rfl⟩, hresolve, hdecoded,
    hschema, halias, ?written, fun coerce => ?named⟩
  case written =>
    rw [hdeclared, hname]
    cases hdecoded
    rfl
  case named => rw [hnamed, hdeclared, hname]

end OpenApi
end ApiTypings
