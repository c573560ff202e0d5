/-
The template of a path keeps everything that its pattern says.

A pattern is cut at its braces into texts and names, and what is cut is all of it: the pieces
written one after the other are the pattern again, whatever its braces are like.  Each piece gives
one part, a name that stands for a path parameter the type of the parameter and any other piece the
text that it is written as.  So the pattern can be read off the parts, with a name in braces for
each type; joining neighbouring texts does not change what is read.

How a pattern with stray braces is cut is a matter of the scan.  A pattern whose braces are balanced
and not nested is spelled by texts and names without braces in them.  Then it does not matter how it
is cut, since any such spelling of it gives the same parts.

Behind the parts of the path stands the query, if there are parameters for one.
-/
import Mathlib
import ApiTypings.Proofs.OperationOverloads

namespace ApiTypings

open OpenApi Inspect

/-! ### Patterns and their pieces -/

namespace PatternPiece

/-- The piece as it is written in a pattern. -/
def written : PatternPiece → List Char
  | text chars => chars
  | braced name => '\x7b' :: name ++ ['\x7d']

/-- There are no braces in the text or in the name. -/
def Plain : PatternPiece → Prop
  | text chars => '\x7b' ∉ chars ∧ '\x7d' ∉ chars
  | braced name => '\x7b' ∉ name ∧ '\x7d' ∉ name

instance : DecidablePred Plain := fun piece =>
  match piece with
  | text chars => inferInstanceAs (Decidable ('\x7b' ∉ chars ∧ '\x7d' ∉ chars))
  | braced name => inferInstanceAs (Decidable ('\x7b' ∉ name ∧ '\x7d' ∉ name))

/-- The pattern consists of these texts and names, and all of its braces stand around the names. -/
structure Spelled (pieces : List PatternPiece) (pattern : List Char) : Prop where
  plain : ∀ piece ∈ pieces, piece.Plain
  written : pieces.flatMap written = pattern

/-- Outside of braces and inside of them, nothing gets lost. -/
theorem flatMap_written_cut (rest : List Char) :
    (∀ before, (cutText before rest).flatMap written = before.reverse ++ rest)
      ∧ ∀ before name, (cutName before name rest).flatMap written
        = before.reverse ++ '\x7b' :: name.reverse ++ rest := by
  induction rest with
  | nil => exact ⟨fun before => by simp [cutText, written], fun before name => by
      simp [cutName, written]⟩
  | cons c rest ih =>
      obtain ⟨htext, hname⟩ := ih
      refine ⟨fun before => ?_, fun before name => ?_⟩
      · rw [cutText]
        by_cases hc : c = '\x7b'
        · rw [if_pos hc, hname, hc]
          simp
        · rw [if_neg hc, htext]
          simp
      · rw [cutName]
        by_cases hc : c = '\x7d'
        · rw [if_pos hc, List.flatMap_cons, List.flatMap_cons, htext, hc]
          simp [written]
        · rw [if_neg hc, hname]
          simp

/-- **The pieces of a pattern, written one after the other, are the pattern.** -/
theorem flatMap_written_ofPattern (pattern : String) :
    (ofPattern pattern).flatMap written = pattern.toList :=
  (flatMap_written_cut pattern.toList).1 []

theorem cutText_append {chars : List Char} (h : '\x7b' ∉ chars) (before rest : List Char) :
    cutText before (chars ++ rest) = cutText (chars.reverse ++ before) rest := by
  induction chars generalizing before with
  | nil => rfl
  | cons c chars ih =>
      obtain ⟨hc, hchars⟩ := not_or.mp (mt List.mem_cons.mpr h)
      rw [List.cons_append, cutText, if_neg (Ne.symm hc), ih hchars]
      simp

theorem cutName_append {name : List Char} (h : '\x7d' ∉ name) (before start rest : List Char) :
    cutName before start (name ++ '\x7d' :: rest)
      = text before.reverse :: braced (start.reverse ++ name) :: cutText [] rest := by
  induction name generalizing start with
  | nil => simp [cutName]
  | cons c name ih =>
      obtain ⟨hc, hname⟩ := not_or.mp (mt List.mem_cons.mpr h)
      rw [List.cons_append, cutName, if_neg (Ne.symm hc), ih hname]
      simp

end PatternPiece

/-! ### Joined templates -/

namespace TemplatePart

/-- The parts with a text behind them, in one part with the text that stands there. -/
def appendText (text : String) : List TemplatePart → List TemplatePart
  | [] => [.text text]
  | [.text last] => [.text (last ++ text)]
  | part :: parts => part :: appendText text parts

theorem prependText_empty (parts : List TemplatePart) : prependText "" parts = parts :=
  if_pos rfl

theorem prependText_nil {front : String} (h : front ≠ "") : prependText front [] = [.text front] :=
  if_neg h

theorem prependText_text {front : String} (h : front ≠ "") (next : String)
    (parts : List TemplatePart) :
    prependText front (.text next :: parts) = .text (front ++ next) :: parts :=
  if_neg h

theorem prependText_type {front : String} (h : front ≠ "") (inner : TypeExpr)
    (parts : List TemplatePart) :
    prependText front (.type inner :: parts) = .text front :: .type inner :: parts :=
  if_neg h

theorem prependText_prependText (first second : String) (parts : List TemplatePart) :
    prependText first (prependText second parts) = prependText (first ++ second) parts := by
  by_cases hfirst : first = ""
  · rw [hfirst, prependText_empty, String.empty_append]
  by_cases hsecond : second = ""
  · rw [hsecond, prependText_empty, String.append_empty]
  have hboth : first ++ second ≠ "" := by
    intro h
    exact hfirst (String.append_eq_empty_iff.mp h).1
  cases parts with
  | nil => rw [prependText_nil hsecond, prependText_nil hboth, prependText_text hfirst]
  | cons part parts =>
      cases part with
      | text next =>
          rw [prependText_text hsecond, prependText_text hboth, prependText_text hfirst,
            String.append_assoc]
      | type inner =>
          rw [prependText_type hsecond, prependText_type hboth, prependText_text hfirst]

/-- What stands behind a type does not matter to a text in front of it. -/
theorem growText_append_type (front : String) (parts rest : List TemplatePart) (inner : TypeExpr) :
    growText front (parts ++ .type inner :: rest) = growText front parts ++ .type inner :: rest := by
  cases parts with
  | nil => rfl
  | cons part parts => cases part <;> rfl

theorem prependText_append_type (front : String) (parts rest : List TemplatePart)
    (inner : TypeExpr) :
    prependText front (parts ++ .type inner :: rest)
      = prependText front parts ++ .type inner :: rest := by
  by_cases hfront : front = ""
  · rw [hfront, prependText_empty, prependText_empty]
  · rw [prependText, if_neg hfront, growText_append_type, prependText, if_neg hfront]

/-- Texts are joined between two types, and on both sides of a type apart. -/
theorem merge_type (parts rest : List TemplatePart) (inner : TypeExpr) :
    merge (parts ++ .type inner :: rest) = merge parts ++ .type inner :: merge rest := by
  induction parts with
  | nil => rfl
  | cons part parts ih =>
      cases part with
      | text front => rw [List.cons_append, merge, merge, ih, prependText_append_type]
      | type first => rw [List.cons_append, merge, merge, ih, List.cons_append]

theorem merge_prependText (front : String) (parts rest : List TemplatePart) :
    merge (prependText front parts ++ rest) = prependText front (merge (parts ++ rest)) := by
  by_cases hfront : front = ""
  · rw [hfront, prependText_empty, prependText_empty]
  cases parts with
  | nil =>
      rw [prependText_nil hfront]
      rfl
  | cons part parts =>
      cases part with
      | text next =>
          rw [prependText_text hfront, List.cons_append, List.cons_append, merge, merge,
            prependText_prependText]
      | type inner =>
          rw [prependText_type hfront]
          rfl

/-- What has been joined may be joined again with what comes behind it. -/
theorem merge_merge_append (parts rest : List TemplatePart) :
    merge (merge parts ++ rest) = merge (parts ++ rest) := by
  induction parts with
  | nil => rfl
  | cons part parts ih =>
      cases part with
      | text front => rw [merge, merge_prependText, ih, List.cons_append, merge]
      | type inner => rw [merge, List.cons_append, List.cons_append, merge, merge, ih]

theorem merge_append_merge (parts rest : List TemplatePart) :
    merge (parts ++ merge rest) = merge (parts ++ rest) := by
  induction parts with
  | nil =>
      have h := merge_merge_append rest []
      rwa [List.append_nil, List.append_nil] at h
  | cons part parts ih =>
      cases part with
      | text front => rw [List.cons_append, List.cons_append, merge, merge, ih]
      | type inner => rw [List.cons_append, List.cons_append, merge, merge, ih]

/-- Texts are joined between the form and the first type of the path, and behind this apart. -/
theorem prefixed_type (form parts rest : List TemplatePart) (inner : TypeExpr) :
    prefixed form (parts ++ .type inner :: rest)
      = prefixed form parts ++ .type inner :: merge rest := by
  rw [prefixed.eq_def, prefixed.eq_def]
  split
  · rw [← List.append_assoc, merge_type, growText_append_type]
  · rw [← List.append_assoc, merge_type]

theorem prefixed_merge (form path : List TemplatePart) :
    prefixed form (merge path) = prefixed form path := by
  rw [prefixed.eq_def, prefixed.eq_def]
  split <;> rw [merge_append_merge]

theorem appendText_cons_cons (text : String) (first second : TemplatePart)
    (parts : List TemplatePart) :
    appendText text (first :: second :: parts) = first :: appendText text (second :: parts) := by
  cases first <;> rfl

theorem prependText_appendText (front text : String) (parts : List TemplatePart) :
    prependText front (appendText text parts) = appendText text (prependText front parts) := by
  by_cases hfront : front = ""
  · rw [hfront, prependText_empty, prependText_empty]
  cases parts with
  | nil => rw [prependText_nil hfront, appendText, appendText, prependText_text hfront]
  | cons part parts =>
      cases part with
      | type inner =>
          rw [prependText_type hfront, appendText_cons_cons, appendText, prependText_type hfront]
          nofun
      | text next =>
          cases parts with
          | nil =>
              rw [prependText_text hfront, appendText, appendText, prependText_text hfront,
                String.append_assoc]
          | cons second parts =>
              rw [prependText_text hfront, appendText_cons_cons, appendText_cons_cons,
                prependText_text hfront]

theorem merge_append_text {text : String} (h : text ≠ "") (parts : List TemplatePart) :
    merge (parts ++ [.text text]) = appendText text (merge parts) := by
  induction parts with
  | nil => exact if_neg h
  | cons part parts ih =>
      cases part with
      | text front => rw [List.cons_append, merge, merge, ih, prependText_appendText]
      | type inner =>
          rw [List.cons_append, merge, merge, ih]
          rfl

end TemplatePart

namespace UrlTemplate

/-! ### The parts of a path -/

/-- The type of a parameter's value: that of its schema, or text. -/
def typeOf (coerce : Bool) (parameter : Parameter) : TypeExpr :=
  (parameter.schema.bind (TypeExpr.lowered coerce)).getD .string

theorem value_valueType (coerce : Bool) (parameter : Parameter) :
    (valueType coerce parameter).value = typeOf coerce parameter := by
  rw [valueType, value_bindPure, typeOf]
  cases parameter.schema <;> rfl

/-- The path parameter that a name stands for. -/
def pathParameter? (table : ParameterTable) (name : String) : Option Parameter :=
  (Json.lookup name table).filter fun parameter => parameter.location = .path

theorem pathParameter?_eq_some_iff {table : ParameterTable} {name : String}
    {parameter : Parameter} :
    pathParameter? table name = some parameter
      ↔ Json.lookup name table = some parameter ∧ parameter.location = .path := by
  rw [pathParameter?, Option.filter_eq_some_iff, decide_eq_true_iff]

theorem pathValue?_eq (table : ParameterTable) (name : String) :
    pathValue? table name = (pathParameter? table name).map (valueType false) := by
  rw [pathValue?, pathParameter?]
  cases Json.lookup name table with
  | none => rfl
  | some parameter =>
      by_cases hpath : parameter.location = .path
      · simp [hpath]
      · simp [hpath]

/-- The part for a piece of a pattern: a type for the name of a path parameter, else the piece as
it is written. -/
def partOf (table : ParameterTable) : PatternPiece → TemplatePart
  | .text chars => .text (String.ofList chars)
  | .braced name =>
    match pathParameter? table (String.ofList name) with
    | some parameter => .type (typeOf false parameter)
    | none => .text (String.ofList (PatternPiece.braced name).written)

theorem value_pathPart (table : ParameterTable) (piece : PatternPiece) :
    (TemplatePart.ofPiece (pathValue? table) piece).value = partOf table piece := by
  cases piece with
  | text chars => rfl
  | braced name =>
      rw [TemplatePart.ofPiece, pathValue?_eq, partOf]
      cases pathParameter? table (String.ofList name) with
      | none => rfl
      | some parameter =>
          dsimp only [Option.map_some]
          rw [value_map, value_valueType]

theorem value_pathParts (table : ParameterTable) (pieces : List PatternPiece) :
    (TemplatePart.ofPieces (pathValue? table) pieces).value = pieces.map (partOf table) := by
  rw [(TemplatePart.traverses_ofPieces _).value_eq fun piece _ => appends_pathPart table piece]
  exact List.map_congr_left fun piece _ => value_pathPart table piece

/-- The parts are what is written in a pattern: texts, and for each type a path parameter of that
type, whose name stands in braces. -/
inductive Writes (table : ParameterTable) : List TemplatePart → List Char → Prop
  | nil : Writes table [] []
  | text {parts : List TemplatePart} {chars : List Char} (text : String)
      (hrest : Writes table parts chars) :
      Writes table (.text text :: parts) (text.toList ++ chars)
  | name {parts : List TemplatePart} {chars : List Char} {name : String} {parameter : Parameter}
      (hlookup : Json.lookup name table = some parameter) (hpath : parameter.location = .path)
      (hrest : Writes table parts chars) :
      Writes table (.type (typeOf false parameter) :: parts)
        ('\x7b' :: name.toList ++ '\x7d' :: chars)

theorem Writes.prependText {table : ParameterTable} {parts : List TemplatePart} {chars : List Char}
    (h : Writes table parts chars) (front : String) :
    Writes table (TemplatePart.prependText front parts) (front.toList ++ chars) := by
  by_cases hfront : front = ""
  · rw [hfront, TemplatePart.prependText_empty]
    exact h
  cases h with
  | nil =>
      rw [TemplatePart.prependText_nil hfront]
      exact .text front .nil
  | text next hrest =>
      rw [TemplatePart.prependText_text hfront, ← List.append_assoc, ← String.toList_append]
      exact .text (front ++ next) hrest
  | name hlookup hpath hrest =>
      rw [TemplatePart.prependText_type hfront]
      exact .text front (.name hlookup hpath hrest)

theorem Writes.merge {table : ParameterTable} {parts : List TemplatePart} {chars : List Char}
    (h : Writes table parts chars) : Writes table (TemplatePart.merge parts) chars := by
  induction h with
  | nil => exact .nil
  | text front _ ih => exact ih.prependText front
  | name hlookup hpath _ ih => exact .name hlookup hpath ih

theorem writes_pieces (table : ParameterTable) (pieces : List PatternPiece) :
    Writes table (pieces.map (partOf table)) (pieces.flatMap PatternPiece.written) := by
  induction pieces with
  | nil => exact .nil
  | cons piece pieces ih =>
      rw [List.map_cons, List.flatMap_cons]
      cases piece with
      | text chars =>
          have h := Writes.text (String.ofList chars) ih
          rwa [String.toList_ofList] at h
      | braced name =>
          rw [partOf]
          split
          · rename_i parameter hparameter
            obtain ⟨hlookup, hpath⟩ := pathParameter?_eq_some_iff.mp hparameter
            have h := Writes.name hlookup hpath ih
            rw [String.toList_ofList] at h
            simpa [PatternPiece.written] using h
          · have h := Writes.text (String.ofList (PatternPiece.braced name).written) ih
            rwa [String.toList_ofList] at h

/-- However a pattern is spelled without braces in its texts and names, it has the parts of that
spelling.  The text that has been scanned stands in front of them. -/
theorem merge_cutText (table : ParameterTable) {pieces : List PatternPiece}
    (hplain : ∀ piece ∈ pieces, piece.Plain) (before : List Char) :
    TemplatePart.merge ((PatternPiece.cutText before
        (pieces.flatMap PatternPiece.written)).map (partOf table))
      = TemplatePart.prependText (String.ofList before.reverse)
        (TemplatePart.merge (pieces.map (partOf table))) := by
  induction pieces generalizing before with
  | nil => rfl
  | cons piece pieces ih =>
      obtain ⟨hpiece, hpieces⟩ := List.forall_mem_cons.mp hplain
      rw [List.flatMap_cons, List.map_cons]
      cases piece with
      | text chars =>
          rw [PatternPiece.written, PatternPiece.cutText_append hpiece.1, ih hpieces,
            List.reverse_append, List.reverse_reverse, String.ofList_append,
            ← TemplatePart.prependText_prependText]
          rfl
      | braced name =>
          have hwritten : (PatternPiece.braced name).written
                ++ pieces.flatMap PatternPiece.written
              = '\x7b' :: (name ++ '\x7d' :: pieces.flatMap PatternPiece.written) := by
            simp [PatternPiece.written]
          rw [hwritten, PatternPiece.cutText, if_pos rfl, PatternPiece.cutName_append hpiece.2]
          have hrest := ih hpieces []
          rw [List.reverse_nil, String.ofList_nil, TemplatePart.prependText_empty] at hrest
          rw [List.map_cons, List.map_cons, partOf, TemplatePart.merge, List.reverse_nil,
            List.nil_append]
          -- A part that is a type and one that is a text are joined alike from here on.
          cases partOf table (.braced name) with
          | text front => rw [TemplatePart.merge, TemplatePart.merge, hrest]
          | type inner => rw [TemplatePart.merge, TemplatePart.merge, hrest]

theorem merge_ofPattern {pattern : String} {pieces : List PatternPiece}
    (h : PatternPiece.Spelled pieces pattern.toList) (table : ParameterTable) :
    TemplatePart.merge ((PatternPiece.ofPattern pattern).map (partOf table))
      = TemplatePart.merge (pieces.map (partOf table)) := by
  have hcut := merge_cutText table h.plain []
  rwa [h.written, List.reverse_nil, String.ofList_nil, TemplatePart.prependText_empty] at hcut

/-! ### The query -/

/-- The field of a parameter in a query. One that may be empty also accepts `true`. -/
def queryField (parameter : Parameter) : Member where
  name := parameter.name
  type := .ofUnion (typeOf true parameter
    :: if parameter.allowEmptyValue then [.literal (.boolean true)] else [])
  isOptional := !parameter.required

/-- The type of a query with these fields. -/
def queryType (fields : List Member) : TypeExpr :=
  .named "URLSearchParamsString" [.object fields]

theorem value_queryFields (parameters : List Parameter) :
    (queryFields parameters).value = parameters.map queryField := by
  rw [traverses_queryFields.value_eq fun parameter _ => appends_valueType true parameter]
  simp only [value_valueType]
  rfl

/-- What stands behind the parts of a path for a query with these fields. -/
def queryEnd (isRequired : Bool) (fields : List Member) : List TemplatePart :=
  if fields.isEmpty then []
  else if isRequired then [.text "?", .type (queryType fields)]
  else [.type (.union [.template [.text "?", .type (queryType fields)], .text ""])]

theorem queryParts_eq (parameters : List Parameter) :
    queryParts parameters = (queryFields parameters >>= fun fields =>
      pure (queryEnd (parameters.any (·.required)) fields)) := by
  rw [queryParts]
  refine bind_congr fun fields => ?_
  cases fields with
  | nil => rfl
  | cons field fields =>
      rw [queryEnd]
      cases parameters.any (·.required) <;> rfl

/-- What stands behind the parts of a path for these query parameters. -/
def queryOf (parameters : List Parameter) : List TemplatePart :=
  queryEnd (parameters.any (·.required)) (parameters.map queryField)

/-- A query stands at the end, and is one of two types. -/
theorem exists_queryOf_eq {parameters : List Parameter} (h : parameters ≠ []) :
    ∃ front last, queryOf parameters = front ++ [.type last]
      ∧ (last = queryType (parameters.map queryField)
        ∨ last = .union [.template [.text "?", .type (queryType (parameters.map queryField))],
          .text ""]) := by
  rw [queryOf, queryEnd, if_neg (by simpa using h)]
  split
  · exact ⟨[.text "?"], _, rfl, .inl rfl⟩
  · exact ⟨[], _, rfl, .inr rfl⟩

theorem value_queryParts (parameters : List Parameter) :
    (queryParts parameters).value = queryOf parameters := by
  rw [queryParts_eq, value_bindPure, value_queryFields, queryOf]

/-- The template of a path: the parts of its pieces and of the query, joined. -/
theorem value_path (pattern : String) (table : ParameterTable) :
    (path pattern table).value
      = TemplatePart.merge ((PatternPiece.ofPattern pattern).map (partOf table)
        ++ queryOf (table.inLocation .query)) := by
  have hquery := appends_queryParts (table.inLocation .query)
  rw [path, (appends_pathParts table _).value_bind (hquery.bindPure _), value_bindPure,
    value_pathParts, value_queryParts]

/-- The fields of the query parameters of a table, in its order. -/
def queryRecord (table : ParameterTable) : List Member :=
  (table.filter fun entry => entry.2.location = .query).map fun entry => queryField entry.2

theorem map_queryField_inLocation (table : ParameterTable) :
    (table.inLocation .query).map queryField = queryRecord table := by
  rw [ParameterTable.inLocation, List.filter_map, List.map_map]
  rfl

/-- How the query stands behind the parts of a path: not at all if the table has no parameters for
it; behind a question mark, which is joined with the text in front of it, if one of them is required;
or else as a segment that may be absent. -/
inductive WithQuery (table : ParameterTable) (parts : List TemplatePart) :
    List TemplatePart → Prop
  | absent (hnone : ∀ entry ∈ table, entry.2.location ≠ .query) : WithQuery table parts parts
  | required (hsome : ∃ entry ∈ table, entry.2.location = .query ∧ entry.2.required = true) :
    WithQuery table parts
      (TemplatePart.appendText "?" parts ++ [.type (queryType (queryRecord table))])
  | optional (hsome : ∃ entry ∈ table, entry.2.location = .query)
      (hnone : ∀ entry ∈ table, entry.2.location = .query → entry.2.required = false) :
    WithQuery table parts (parts ++ [.type (.union [
      .template [.text "?", .type (queryType (queryRecord table))], .text ""])])

theorem exists_inLocation_iff {table : ParameterTable} {location : Location}
    {P : Parameter → Prop} :
    (∃ parameter ∈ table.inLocation location, P parameter)
      ↔ ∃ entry ∈ table, entry.2.location = location ∧ P entry.2 := by
  simp only [ParameterTable.inLocation, List.mem_filter, List.mem_map, decide_eq_true_iff]
  constructor
  · rintro ⟨_, ⟨⟨entry, hentry, rfl⟩, hlocation⟩, h⟩
    exact ⟨entry, hentry, hlocation, h⟩
  · rintro ⟨entry, hentry, hlocation, h⟩
    exact ⟨entry.2, ⟨⟨entry, hentry, rfl⟩, hlocation⟩, h⟩

theorem withQuery_merge (table : ParameterTable) (parts : List TemplatePart) :
    WithQuery table (TemplatePart.merge parts)
      (TemplatePart.merge (parts ++ queryOf (table.inLocation .query))) := by
  rw [queryOf, queryEnd, map_queryField_inLocation]
  by_cases hsome : ∃ entry ∈ table, entry.2.location = .query
  · have hfields : queryRecord table ≠ [] := by
      obtain ⟨entry, hentry, hlocation⟩ := hsome
      exact List.ne_nil_of_mem (List.mem_map_of_mem
        (List.mem_filter.mpr ⟨hentry, decide_eq_true hlocation⟩))
    rw [if_neg (by simpa using hfields)]
    by_cases hrequired : (table.inLocation .query).any (·.required) = true
    · have hparts (query : TypeExpr) : parts ++ [.text "?", .type query]
          = (parts ++ [.text "?"]) ++ .type query :: [] := by simp
      rw [if_pos hrequired, hparts, TemplatePart.merge_type,
        TemplatePart.merge_append_text (by decide)]
      exact .required (exists_inLocation_iff.mp (List.any_eq_true.mp hrequired))
    · rw [if_neg hrequired, TemplatePart.merge_type]
      refine .optional hsome fun entry hentry hlocation => Bool.eq_false_iff.mpr fun h => ?_
      exact hrequired (List.any_eq_true.mpr
        (exists_inLocation_iff.mpr ⟨entry, hentry, hlocation, h⟩))
  · have hnone : ∀ entry ∈ table, entry.2.location ≠ .query :=
      fun entry hentry hlocation => hsome ⟨entry, hentry, hlocation⟩
    have hfields : queryRecord table = [] := by
      rw [queryRecord, List.filter_eq_nil_iff.mpr (by simpa using hnone), List.map_nil]
    rw [hfields, List.isEmpty_nil, if_pos rfl, List.append_nil]
    exact .absent hnone

/-- **The template of a path loses nothing of its pattern.**  It has the parts of the path and then
the query.  With a name in braces for each type the parts are the pattern, and the name is that of a
path parameter, whose type it is.  If the pattern can be spelled without braces in its texts and
names, then exactly the names of path parameters have become types, and all else is text. -/
theorem path_keeps_pattern (pattern : String) (table : ParameterTable) :
    ∃ parts, Writes table parts pattern.toList
      ∧ (∀ pieces, PatternPiece.Spelled pieces pattern.toList →
        parts = TemplatePart.merge (pieces.map (partOf table)))
      ∧ WithQuery table parts (path pattern table).value := by
  refine ⟨TemplatePart.merge ((PatternPiece.ofPattern pattern).map (partOf table)), ?writes,
    fun pieces hpieces => merge_ofPattern hpieces table, ?query⟩
  case writes =>
    have h := writes_pieces table (PatternPiece.ofPattern pattern)
    rw [PatternPiece.flatMap_written_ofPattern] at h
    exact h.merge
  case query =>
    rw [value_path]
    exact withQuery_merge _ _

/-- A name of a path parameter, a name of another parameter, and a query with a required field, whose
question mark grows together with the name that stays. -/
theorem path_keeps_pattern_pets :
    let integer : Schema := .inline { type := some (.single "integer") }
    let table : ParameterTable := [
      ("limit", { name := "limit", allowEmptyValue := true, schema := some integer }),
      ("id", { name := "id", location := .path, required := true, schema := some integer }),
      ("sort", { name := "sort", required := true }),
      ("trace", { name := "trace", location := .header })]
    let pattern := "/pets/\x7bid\x7d/\x7btrace\x7d"
    let pieces : List PatternPiece := [.text "/pets/".toList, .braced "id".toList,
      .text "/".toList, .braced "trace".toList]
    PatternPiece.Spelled pieces pattern.toList
      ∧ (∃ parts, Writes table parts pattern.toList
        ∧ parts = TemplatePart.merge (pieces.map (partOf table))
        ∧ parts = [.text "/pets/", .type .number, .text "/\x7btrace\x7d"]
        ∧ WithQuery table parts (path pattern table).value)
      ∧ (path pattern table).value = [.text "/pets/", .type .number, .text "/\x7btrace\x7d?",
        .type (.named "URLSearchParamsString" [.object [
          { name := "limit"
            type := .union [.template [.type .number], .literal (.boolean true)]
            isOptional := true },
          .property "sort" .string]])]
      ∧ (TypeExpr.template (path pattern table).value).render
        = "\x60/pets/$\x7bnumber\x7d/\x7btrace\x7d?$\x7bURLSearchParamsString<\x7b "
          ++ "limit?: \x60$\x7bnumber\x7d\x60 | true; sort: string \x7d>\x7d\x60" := by
  intro integer table pattern pieces
  have hspelled : PatternPiece.Spelled pieces pattern.toList := ⟨by decide, by decide⟩
  obtain ⟨parts, hwrites, hparts, hquery⟩ := path_keeps_pattern pattern table
  have hpieces := hparts pieces hspelled
  refine ⟨hspelled, ⟨parts, hwrites, hpieces, ?parts, hquery⟩, ?value, by decide +kernel⟩
  case parts =>
    rw [hpieces]
    rfl
  case value =>
    dsimp only [pattern, table, integer]
    rfl

end UrlTemplate
end ApiTypings
