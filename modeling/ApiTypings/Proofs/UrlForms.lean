/-
The forms of a URL that an overload accepts.

A URL may begin with a base URL, with any scheme and host, with a server of the document, or with
the path itself.  `sources` lists these beginnings as far as the settings ask for them, and each
accepted URL has one of them in front of the path.  Where there is none, there is no overload.

What stands in front and the path are templates, and at the seam their texts grow together.  So a
URL is compared with them symbol by symbol: `symbols` are the characters of the texts and the types,
as they come.

The URL of a server is cut at its braces like a path pattern.  `Cut` is how a text is cut from the
left, and there is one way only.
-/
import Mathlib
import ApiTypings.Proofs.BuiltTypes
import ApiTypings.Proofs.DeclaredParameters
import ApiTypings.Proofs.FlatTypes

namespace ApiTypings

open OpenApi

/-! ### Cutting at braces -/

namespace PatternPiece

/-- How a text is cut from the left: in front of the first opening brace, and behind the next
closing one. Where no brace opens, or none closes behind it, all of it is text. -/
inductive Cut : List Char → List PatternPiece → Prop
  | text {chars : List Char} (hopen : '\x7b' ∉ chars) : Cut chars [.text chars]
  | unclosed {before rest : List Char} (hopen : '\x7b' ∉ before) (hclose : '\x7d' ∉ rest) :
      Cut (before ++ '\x7b' :: rest) [.text (before ++ '\x7b' :: rest)]
  | name {before name rest : List Char} {pieces : List PatternPiece} (hopen : '\x7b' ∉ before)
      (hclose : '\x7d' ∉ name) (hrest : Cut rest pieces) :
      Cut (before ++ '\x7b' :: name ++ '\x7d' :: rest) (.text before :: .braced name :: pieces)

/-- Outside of braces and inside of them, the scan cuts from the left. -/
theorem cut_scan (rest : List Char) :
    (∀ before, '\x7b' ∉ before → Cut (before.reverse ++ rest) (cutText before rest))
      ∧ ∀ before name, '\x7b' ∉ before → '\x7d' ∉ name →
        Cut (before.reverse ++ '\x7b' :: name.reverse ++ rest) (cutName before name rest) := by
  induction rest with
  | nil =>
      refine ⟨fun before hopen => ?_, fun before name hopen hclose => ?_⟩
      · rw [cutText, List.append_nil]
        exact .text (by simpa using hopen)
      · rw [cutName, List.append_nil]
        exact .unclosed (by simpa using hopen) (by simpa using hclose)
  | cons c rest ih =>
      obtain ⟨htext, hname⟩ := ih
      refine ⟨fun before hopen => ?_, fun before name hopen hclose => ?_⟩
      · rw [cutText]
        by_cases hc : c = '\x7b'
        · rw [if_pos hc, hc]
          simpa using hname before [] hopen List.not_mem_nil
        · rw [if_neg hc]
          have hbefore : '\x7b' ∉ c :: before := by simp [hopen, Ne.symm hc]
          simpa using htext (c :: before) hbefore
      · rw [cutName]
        by_cases hc : c = '\x7d'
        · rw [if_pos hc, hc]
          have hrest := htext [] List.not_mem_nil
          rw [List.reverse_nil, List.nil_append] at hrest
          exact .name (by simpa using hopen) (by simpa using hclose) hrest
        · rw [if_neg hc]
          have hclosed : '\x7d' ∉ c :: name := by simp [hclose, Ne.symm hc]
          simpa using hname before (c :: name) hopen hclosed

theorem cutName_of_not_mem {rest : List Char} (h : '\x7d' ∉ rest) (before name : List Char) :
    cutName before name rest = [text (before.reverse ++ '\x7b' :: name.reverse ++ rest)] := by
  induction rest generalizing name with
  | nil => rw [cutName, List.append_nil]
  | cons c rest ih =>
      obtain ⟨hc, hrest⟩ := not_or.mp (mt List.mem_cons.mpr h)
      rw [cutName, if_neg (Ne.symm hc), ih hrest]
      simp

theorem Cut.eq {chars : List Char} {pieces : List PatternPiece} (h : Cut chars pieces) :
    cutText [] chars = pieces := by
  induction h with
  | @text chars hopen =>
      have hcut := cutText_append hopen [] []
      rw [List.append_nil] at hcut
      rw [hcut, cutText]
      simp
  | unclosed hopen hclose =>
      rw [cutText_append hopen, cutText, if_pos rfl, cutName_of_not_mem hclose]
      simp
  | name hopen hclose _ ih =>
      rw [List.append_assoc, List.cons_append, cutText_append hopen, cutText, if_pos rfl,
        cutName_append hclose, ih]
      simp

/-- **A text is cut in one way only, and the scan finds it.** -/
theorem cut_iff {chars : List Char} {pieces : List PatternPiece} :
    Cut chars pieces ↔ pieces = cutText [] chars := by
  constructor
  · exact fun h => h.eq.symm
  · rintro rfl
    simpa using (cut_scan chars).1 [] List.not_mem_nil

end PatternPiece

/-! ### Templates symbol by symbol -/

namespace TemplatePart

/-- The characters of the texts and the types, in their order. -/
def symbols : List TemplatePart → List (Char ⊕ TypeExpr)
  | [] => []
  | .text front :: parts => front.toList.map .inl ++ symbols parts
  | .type inner :: parts => .inr inner :: symbols parts

theorem symbols_append (first second : List TemplatePart) :
    symbols (first ++ second) = symbols first ++ symbols second := by
  induction first with
  | nil => rfl
  | cons part first ih =>
      cases part with
      | text front => rw [List.cons_append, symbols, symbols, ih, List.append_assoc]
      | type inner => rw [List.cons_append, symbols, symbols, ih, List.cons_append]

theorem symbols_growText (front : String) (parts : List TemplatePart) :
    symbols (growText front parts) = front.toList.map .inl ++ symbols parts := by
  cases parts with
  | nil => rfl
  | cons part parts =>
      cases part with
      | text next =>
          rw [growText, symbols, symbols, String.toList_append, List.map_append, List.append_assoc]
      | type inner => rfl

theorem symbols_prependText (front : String) (parts : List TemplatePart) :
    symbols (prependText front parts) = front.toList.map .inl ++ symbols parts := by
  by_cases hfront : front = ""
  · rw [hfront, prependText_empty]
    rfl
  · rw [prependText, if_neg hfront, symbols_growText]

/-- Joining neighbouring texts changes no symbol. -/
theorem symbols_merge (parts : List TemplatePart) : symbols (merge parts) = symbols parts := by
  induction parts with
  | nil => rfl
  | cons part parts ih =>
      cases part with
      | text front => rw [merge, symbols_prependText, ih, symbols]
      | type inner => rw [merge, symbols, ih, symbols]

theorem symbols_prefixed (form path : List TemplatePart) :
    symbols (prefixed form path) = symbols form ++ symbols path := by
  rw [prefixed.eq_def]
  split
  · rw [symbols_growText, symbols_merge, symbols_append, symbols, List.append_assoc]
  · rw [symbols_merge, symbols_append]

/-- A text that a form begins with is one that the whole begins with. -/
theorem exists_prefixed_text (front : String) (form path : List TemplatePart) :
    ∃ text rest, prefixed (.text front :: form) path = .text text :: rest := by
  rw [prefixed, growText.eq_def]
  split <;> exact ⟨_, _, rfl⟩

/-- Nothing is left of a base URL that is a slash, and its text stays in front of a type. -/
example : prefixed [.text ""] [.type .string] = [.text "", .type .string] := rfl

end TemplatePart

namespace UrlTemplate

/-! ### What stands in front of a path -/

/-- What a URL begins with. -/
inductive Source
  | base (url : String)
  /-- any scheme and host -/
  | absolute
  | server (server : Server)
  /-- the path itself -/
  | relative

/-- The beginnings that the settings ask for: base URLs that are not blank, any host, the servers of
the document, and the path itself. -/
def sources (document : Document) (settings : Settings) : List Source :=
  (settings.baseUrls.filter fun url => Text.trim url ≠ "").map .base
    ++ (if settings.includeAbsoluteUrl then [.absolute] else [])
    ++ (if settings.includeServerUrls then document.description.servers.map .server else [])
    ++ if settings.includeRelativeUrl then [.relative] else []

/-- The second text is the first one without one slash at its end. -/
inductive DropsSlash : List Char → List Char → Prop
  | slash (rest : List Char) : DropsSlash (rest ++ ['/']) rest
  | none {text : List Char} (h : text.getLast? ≠ some '/') : DropsSlash text text

/-- What becomes of a piece of a server URL: a declared variable is one of the texts that it lists,
or its default where none is listed, and anything else is kept. -/
inductive Substitutes (server : Server) : PatternPiece → TemplatePart → Prop
  | text (chars : List Char) : Substitutes server (.text chars) (.text (String.ofList chars))
  | listed {name : List Char} {found : ServerVariable} {values : List String}
      (hfound : Json.lookup (String.ofList name) server.placeholders = some found)
      (henum : found.enum = some values) (hvalues : values ≠ []) :
      Substitutes server (.braced name) (.type (.ofUnion (values.map TypeExpr.text)))
  | default {name : List Char} {found : ServerVariable}
      (hfound : Json.lookup (String.ofList name) server.placeholders = some found)
      (henum : found.enum = none ∨ found.enum = some []) :
      Substitutes server (.braced name) (.type (.text found.default))
  | undeclared {name : List Char}
      (hfound : Json.lookup (String.ofList name) server.placeholders = none) :
      Substitutes server (.braced name) (.text (String.ofList ('\x7b' :: name ++ ['\x7d'])))

/-- The parts that a beginning puts in front of a path. -/
inductive Source.Starts : Source → List TemplatePart → Prop
  | base {url : String} {rest : List Char} (hslash : DropsSlash (Text.trim url).toList rest) :
      Starts (.base url) [.text (String.ofList rest)]
  | absolute : Starts .absolute [.type (.union [.text "http://", .text "https://"]), .type .string]
  | server {server : Server} {rest : List Char} {pieces : List PatternPiece}
      {parts : List TemplatePart} (hslash : DropsSlash server.url.toList rest)
      (hcut : PatternPiece.Cut rest pieces)
      (hparts : List.Forall₂ (Substitutes server) pieces parts) : Starts (.server server) parts
  | relative : Starts .relative []

theorem dropsSlash_dropSlash (text : List Char) : DropsSlash text (dropSlash text) := by
  rw [dropSlash]
  split
  · rename_i rest hrest
    have htext : text = rest.reverse ++ ['/'] := by
      rw [← List.reverse_reverse text, hrest, List.reverse_cons]
    rw [htext]
    exact .slash rest.reverse
  · rename_i hnone
    refine .none fun hlast => ?_
    obtain ⟨rest, rfl⟩ := List.getLast?_eq_some_iff.mp hlast
    exact hnone rest.reverse (by simp)

theorem starts_base {url : String} (h : Text.trim url ≠ "") :
    ∃ text, baseText? url = some text ∧ (Source.base url).Starts [.text text] := by
  have hblank : Text.nonBlank? url = some (Text.trim url) := if_neg h
  exact ⟨_, by rw [baseText?, hblank, Option.map_some], .base (dropsSlash_dropSlash _)⟩

theorem substitutes_variable {server : Server} {name : List Char} {found : ServerVariable}
    (hfound : Json.lookup (String.ofList name) server.placeholders = some found) :
    Substitutes server (.braced name) (.type (variableType found)) := by
  rw [variableType]
  split
  · rename_i value values henum
    exact .listed hfound henum (List.cons_ne_nil _ _)
  · rename_i hnone
    refine .default hfound ?_
    cases henum : found.enum with
    | none => exact .inl rfl
    | some values =>
        cases values with
        | nil => exact .inr rfl
        | cons value values => exact absurd henum (hnone value values)

theorem starts_server (server : Server) : (Source.server server).Starts (serverParts server) := by
  refine .server (dropsSlash_dropSlash _) (PatternPiece.cut_iff.mpr rfl) ?_
  rw [serverParts, List.forall₂_map_right_iff]
  refine List.forall₂_same.mpr fun piece _ => ?_
  cases piece with
  | text chars => exact .text chars
  | braced name =>
      dsimp only
      cases hfound : Json.lookup (String.ofList name) server.placeholders with
      | none => exact .undeclared hfound
      | some found => exact substitutes_variable hfound

/-- The form has the symbols that the beginning puts in front of a path, and is a single text for a
base URL. -/
structure Source.HasForm (source : Source) (form : List TemplatePart) : Prop where
  symbols : ∃ start, source.Starts start
    ∧ TemplatePart.symbols form = TemplatePart.symbols start
  base : ∀ url, source = .base url → ∃ text, form = [.text text]

theorem Source.Starts.hasForm {source : Source} {start : List TemplatePart}
    (h : source.Starts start) (hbase : ∀ url, source = .base url → ∃ text, start = [.text text]) :
    source.HasForm start :=
  ⟨⟨start, h, rfl⟩, hbase⟩

theorem hasForm_server (server : Server) :
    (Source.server server).HasForm (TemplatePart.merge (serverParts server)) :=
  ⟨⟨_, starts_server server, TemplatePart.symbols_merge _⟩, nofun⟩

/-- **There is a form of a URL for each beginning**, in their order. -/
theorem hasForm_forms (document : Document) (settings : Settings) :
    List.Forall₂ Source.HasForm (sources document settings) (forms document settings) := by
  refine List.rel_append (List.rel_append (List.rel_append ?base ?absolute) ?server) ?relative
  case base =>
    induction settings.baseUrls with
    | nil => exact .nil
    | cons url urls ih =>
        by_cases hblank : Text.trim url = ""
        · have hnone : baseText? url = none := by
            rw [baseText?, Text.nonBlank?, if_pos hblank, Option.map_none]
          rw [List.filter_cons_of_neg (by simpa using hblank), List.filterMap_cons_none hnone]
          exact ih
        · obtain ⟨text, htext, hstarts⟩ := starts_base hblank
          rw [List.filter_cons_of_pos (by simpa using hblank), List.filterMap_cons_some htext]
          exact .cons (hstarts.hasForm fun _ _ => ⟨text, rfl⟩) ih
  case absolute =>
    split
    · exact .cons (Source.Starts.absolute.hasForm nofun) .nil
    · exact .nil
  case server =>
    split
    · rw [List.forall₂_map_left_iff, List.forall₂_map_right_iff]
      exact List.forall₂_same.mpr fun server _ => hasForm_server server
    · exact .nil
  case relative =>
    split
    · exact .cons (Source.Starts.relative.hasForm nofun) .nil
    · exact .nil

/-! ### Which URLs an overload accepts -/

/-- The settings and the document ask for no form of a URL. -/
structure NoForm (document : Document) (settings : Settings) : Prop where
  base : ∀ url ∈ settings.baseUrls, Text.trim url = ""
  absolute : settings.includeAbsoluteUrl = false
  server : settings.includeServerUrls = false ∨ document.description.servers = []
  relative : settings.includeRelativeUrl = false

/-- The URL is the path with the beginning in front of it, and their texts have grown together.  A
base URL is part of a text, even if nothing is left of it. -/
def Source.Begins (path : List TemplatePart) (source : Source) (url : List TemplatePart) : Prop :=
  ∃ start, source.Starts start
    ∧ TemplatePart.symbols url = TemplatePart.symbols start ++ TemplatePart.symbols path
    ∧ TemplatePart.SeparateTexts url
    ∧ ∀ base, source = .base base → ∃ text rest, url = .text text :: rest

variable {document : Document} {settings : Settings}

theorem sources_eq_nil_iff : sources document settings = [] ↔ NoForm document settings := by
  have hbase : (settings.baseUrls.filter fun url => Text.trim url ≠ "").map Source.base = []
      ↔ ∀ url ∈ settings.baseUrls, Text.trim url = "" := by
    rw [List.map_eq_nil_iff, List.filter_eq_nil_iff]
    simp
  have hchosen : ∀ (flag : Bool) (chosen : List Source),
      (if flag = true then chosen else []) = [] ↔ flag = false ∨ chosen = [] := by
    intro flag chosen
    cases flag <;> simp
  rw [sources, List.append_eq_nil_iff, List.append_eq_nil_iff, List.append_eq_nil_iff, hbase,
    hchosen, hchosen, hchosen, List.map_eq_nil_iff]
  constructor
  · rintro ⟨⟨⟨hblank, habsolute⟩, hserver⟩, hrelative⟩
    exact ⟨hblank, habsolute.resolve_right nofun, hserver, hrelative.resolve_right nofun⟩
  · rintro ⟨hblank, habsolute, hserver, hrelative⟩
    exact ⟨⟨⟨hblank, .inl habsolute⟩, hserver⟩, .inl hrelative⟩

theorem forms_eq_nil_iff : forms document settings = [] ↔ NoForm document settings := by
  have hlength := (hasForm_forms document settings).length_eq
  rw [← sources_eq_nil_iff, ← List.length_eq_zero_iff, ← List.length_eq_zero_iff, hlength]

/-- A form and the path behind it are joined into one URL. -/
theorem begins_forms (document : Document) (settings : Settings) (path : List TemplatePart) :
    List.Forall₂ (Source.Begins path) (sources document settings)
      ((forms document settings).map fun form => TemplatePart.prefixed form path) := by
  rw [List.forall₂_map_right_iff]
  refine (hasForm_forms document settings).imp fun source form hform => ?_
  obtain ⟨start, hstarts, hsymbols⟩ := hform.symbols
  refine ⟨start, hstarts, ?_, TemplatePart.separateTexts_prefixed form path, fun base hbase => ?_⟩
  · rw [TemplatePart.symbols_prefixed, hsymbols]
  · obtain ⟨text, rfl⟩ := hform.base base hbase
    exact TemplatePart.exists_prefixed_text text [] path

/-- What the accepted URLs of a path are, given what comes of asking for them. -/
structure Accepts (document : Document) (settings : Settings) (path : List TemplatePart)
    (result : Except Failure TypeExpr) : Prop where
  none : result = .error (.noInputUrls (.template path) settings) ↔ NoForm document settings
  some : ¬NoForm document settings → ∃ type urls, result = .ok type
    ∧ List.Forall₂ (Source.Begins path) (sources document settings) urls
    ∧ type = .ofUnion (urls.map TypeExpr.template)
    ∧ type.alternatives = urls.map TypeExpr.template

/-- **The accepted URLs are the forms that the settings ask for**, each once and in their order, and
a path without any is an error.  In each URL the beginning stands in front of the path, and nothing
is lost or changed at the seam. -/
theorem input_accepts (document : Document) (settings : Settings) (pattern : String)
    (table : ParameterTable) :
    Accepts document settings (path pattern table).value
      (input document settings (path pattern table).value) := by
  generalize (path pattern table).value = parts
  by_cases hnone : NoForm document settings
  · have hinput : input document settings parts
        = .error (.noInputUrls (.template parts) settings) := by
      rw [input, forms_eq_nil_iff.mpr hnone]
    exact ⟨iff_of_true hinput hnone, fun hsome => absurd hnone hsome⟩
  · have hforms : forms document settings ≠ [] := mt forms_eq_nil_iff.mp hnone
    obtain ⟨type, hinput⟩ : ∃ type, input document settings parts = .ok type := by
      rw [input]
      split
      · exact absurd ‹_› hforms
      · exact ⟨_, rfl⟩
    obtain ⟨-, htype⟩ := input_eq_ok hinput
    have hok : input document settings parts
        ≠ .error (.noInputUrls (.template parts) settings) := by
      intro herror
      cases hinput.symm.trans herror
    refine ⟨iff_of_false hok hnone, fun _ => ?_⟩
    refine ⟨type, _, hinput, begins_forms document settings parts, htype, ?_⟩
    rw [htype]
    refine TypeExpr.alternatives_ofUnion_self (fun url hurl inner heq => ?_) (by simpa using hforms)
    obtain ⟨template, -, rfl⟩ := List.mem_map.mp hurl
    cases heq

/-- All kinds of forms at once, one of them from a server with a variable; and a blank base URL,
which gives none. -/
theorem input_accepts_ping :
    let region : ServerVariable := { enum := some ["eu", "us"], default := "eu" }
    let first : Server := { url := "https://api.example.com/v1/" }
    let second : Server :=
      { url := "https://\x7bregion\x7d.example.com", placeholders := [("region", region)] }
    let document : Document := ⟨.object [], { servers := [first, second] }⟩
    let settings : Settings := {
      baseUrls := ["http://localhost:8080/", "  "]
      includeAbsoluteUrl := true
      includeRelativeUrl := true }
    ¬NoForm document settings
      ∧ sources document settings = [.base "http://localhost:8080/", .absolute, .server first,
        .server second, .relative]
      ∧ ∃ type urls, input document settings (path "/ping" []).value = .ok type
        ∧ List.Forall₂ (Source.Begins (path "/ping" []).value) (sources document settings) urls
        ∧ type = .ofUnion (urls.map TypeExpr.template)
        ∧ type.alternatives = urls.map TypeExpr.template := by
  intro region first second document settings
  have hsome : ¬NoForm document settings := fun h => absurd h.absolute (by decide)
  have hblank : settings.baseUrls.filter (fun url => Text.trim url ≠ "")
      = ["http://localhost:8080/"] := by decide +kernel
  refine ⟨hsome, ?_, (input_accepts document settings "/ping" []).some hsome⟩
  rw [sources, hblank]
  rfl

end UrlTemplate
end ApiTypings
