/-
How the types of URLs and of parameters are built.

The names of parameters are distinct because a table keeps one parameter under each name.
Forms and paths are joined only once they are together, so that no two texts touch
where one ends and the other begins.
-/
import Mathlib
import ApiTypings.Proofs.BuiltTypes

namespace ApiTypings

open OpenApi Inspect TypeExpr

/-! ### Parameter tables -/

namespace ParameterTable

variable {P : String → Prop}

/-- One parameter under each name, and under its own. -/
structure Proper (P : String → Prop) (table : ParameterTable) : Prop where
  names : (table.map Prod.fst).Nodup
  own : ∀ entry ∈ table, entry.1 = entry.2.name
  parameters : ∀ entry ∈ table, entry.2.Proper P

theorem proper_nil : Proper P [] := ⟨List.nodup_nil, nofun, nofun⟩

theorem Proper.insert {table : ParameterTable} (h : table.Proper P) {parameter : Parameter}
    (hparameter : parameter.Proper P) : (table.insert parameter).Proper P := by
  refine ⟨?_, fun entry hentry => ?_, fun entry hentry => ?_⟩
  · exact Json.nodup_keys_insertField h.names
  · rcases Json.mem_insertField hentry with rfl | hentry
    · rfl
    · exact h.own entry hentry
  · rcases Json.mem_insertField hentry with rfl | hentry
    · exact hparameter
    · exact h.parameters entry hentry

theorem Proper.add {document : Document} {table : ParameterTable} (h : table.Proper P)
    {entries : List (Referable Parameter)}
    (hentries : ∀ entry ∈ entries, ∀ parameter,
      document.fetch OpenApi.parameter.decode entry = .ok parameter → parameter.Proper P) :
    (add document table entries).1.Proper P := by
  induction entries generalizing table with
  | nil => exact h
  | cons entry entries ih =>
      rw [ParameterTable.add]
      split
      · rename_i parameter hparameter
        exact ih (h.insert (hentries entry List.mem_cons_self parameter hparameter))
          fun e he => hentries e (List.mem_cons_of_mem _ he)
      · exact h

theorem Proper.add? {document : Document} {table result : ParameterTable} (h : table.Proper P)
    {entries : List (Referable Parameter)}
    (hentries : ∀ entry ∈ entries, ∀ parameter,
      document.fetch OpenApi.parameter.decode entry = .ok parameter → parameter.Proper P)
    (hresult : add? document table entries = .ok result) : result.Proper P := by
  have hadd := h.add hentries
  unfold ParameterTable.add? at hresult
  split at hresult
  · rename_i added hadded
    cases hresult
    rwa [hadded] at hadd
  · cases hresult

/-- The parameters of one location have distinct names. -/
theorem Proper.inLocation {table : ParameterTable} (h : table.Proper P) (location : Location) :
    ((table.inLocation location).map Parameter.name).Nodup
      ∧ ∀ parameter ∈ table.inLocation location, parameter.Proper P := by
  have hnames : (table.map Prod.snd).map Parameter.name = table.map Prod.fst := by
    rw [List.map_map]
    exact List.map_congr_left fun entry hentry => (h.own entry hentry).symm
  constructor
  · refine List.Nodup.sublist (List.Sublist.map _ List.filter_sublist) ?_
    rw [hnames]
    exact h.names
  · intro parameter hparameter
    obtain ⟨entry, hentry, rfl⟩ := List.mem_map.mp (List.mem_of_mem_filter hparameter)
    exact h.parameters entry hentry

end ParameterTable

/-! ### URLs -/

namespace UrlTemplate

variable {P : String → Prop}

theorem always_valueType {coerce : Bool} {parameter : Parameter} (h : parameter.Proper P) :
    Always (Built P) (valueType coerce parameter) :=
  (always_ofItem h).bind fun _ htype => always_pure (.getD htype (.keyword _))

theorem always_queryFields {parameters : List Parameter}
    (h : ∀ parameter ∈ parameters, parameter.Proper P) :
    Always (fun fields => fields.map Member.name = parameters.map Parameter.name
      ∧ ∀ field ∈ fields, Built P field.type) (queryFields parameters) := by
  refine (traverses_queryFields.always_map_eq fun _ _ => rfl).and
    (traverses_queryFields.always fun parameter hparameter => ?_)
  refine (always_valueType (h parameter hparameter)).imp fun type htype => .union ?_
  refine List.forall_mem_cons.mpr ⟨htype, ?_⟩
  split
  · exact fun type htype => List.mem_singleton.mp htype ▸ .literal _
  · exact nofun

/-- Every type among the parts is built. -/
def BuiltParts (P : String → Prop) (parts : List TemplatePart) : Prop :=
  ∀ inner, .type inner ∈ parts → Built P inner

theorem builtParts_text {text : String} {parts : List TemplatePart} (h : BuiltParts P parts) :
    BuiltParts P (.text text :: parts) :=
  fun inner hinner => h inner (by simpa using hinner)

theorem builtParts_type {type : TypeExpr} {parts : List TemplatePart} (htype : Built P type)
    (h : BuiltParts P parts) : BuiltParts P (.type type :: parts) := by
  intro inner hinner
  rcases List.mem_cons.mp hinner with heq | hinner
  · cases heq
    exact htype
  · exact h inner hinner

theorem builtParts_append {first second : List TemplatePart} (hfirst : BuiltParts P first)
    (hsecond : BuiltParts P second) : BuiltParts P (first ++ second) := by
  intro inner hinner
  rcases List.mem_append.mp hinner with hinner | hinner
  · exact hfirst inner hinner
  · exact hsecond inner hinner

theorem built_prefixed {form path : List TemplatePart} (hform : BuiltParts P form)
    (hpath : BuiltParts P path) : Built P (template (TemplatePart.prefixed form path)) :=
  .template (TemplatePart.separateTexts_prefixed form path) fun inner hinner =>
    builtParts_append hform hpath inner (TemplatePart.type_mem_prefixed hinner)

theorem always_ofPieces {typeOf? : String → Option (Inspect TypeExpr)}
    (h : ∀ name, ∀ inspect ∈ typeOf? name, Always (Built P) inspect) (pieces : List PatternPiece) :
    Always (BuiltParts P) (TemplatePart.ofPieces typeOf? pieces) := by
  have hpieces : Always (fun parts => ∀ part ∈ parts, ∀ inner, part = .type inner → Built P inner)
      (TemplatePart.ofPieces typeOf? pieces) := by
    have htext : ∀ text inner, TemplatePart.text text = .type inner → Built P inner := by
      intro text inner heq
      cases heq
    refine (TemplatePart.traverses_ofPieces typeOf?).always fun piece _ => ?_
    cases piece with
    | text chars => exact always_pure (htext _)
    | braced name =>
        rw [TemplatePart.ofPiece]
        split
        · rename_i inspect hinspect
          refine (h _ inspect hinspect).map fun type htype inner heq => ?_
          cases heq
          exact htype
        · exact always_pure (htext _)
  exact hpieces.imp fun parts hparts inner hinner => hparts _ hinner inner rfl

theorem always_pathValue? {table : ParameterTable} (h : table.Proper P) (name : String) :
    ∀ inspect ∈ pathValue? table name, Always (Built P) inspect := by
  intro inspect hinspect
  unfold pathValue? at hinspect
  split at hinspect
  · rename_i parameter hparameter
    split at hinspect <;> cases hinspect
    exact always_valueType (h.parameters _ (Json.mem_of_lookup hparameter))
  · cases hinspect

theorem always_queryParts {parameters : List Parameter}
    (hnames : (parameters.map Parameter.name).Nodup)
    (h : ∀ parameter ∈ parameters, parameter.Proper P) :
    Always (BuiltParts P) (queryParts parameters) := by
  refine (always_queryFields h).bind fun fields hfields => ?_
  split
  · exact always_pure nofun
  · rename_i hne
    have hquery : Built P (named "URLSearchParamsString" [.object fields]) :=
      .applied (by decide) (.object (by simpa using hne) (hfields.1 ▸ hnames) hfields.2)
    split
    · exact always_pure (builtParts_text (builtParts_type hquery nofun))
    · refine always_pure (builtParts_type (.union ?_) nofun)
      simp only [List.forall_mem_cons]
      refine ⟨.template ?_ (builtParts_text (builtParts_type hquery nofun)), .literal _, nofun⟩
      exact List.isChain_pair.mpr (by simp [TemplatePart.isText])

theorem always_path {table : ParameterTable} (h : table.Proper P) (pattern : String) :
    Always (BuiltParts P) (path pattern table) := by
  obtain ⟨hnames, hparameters⟩ := h.inLocation .query
  refine (always_ofPieces (always_pathValue? h) _).bind fun parts hparts => ?_
  refine (always_queryParts hnames hparameters).bind fun query hquery => ?_
  exact always_pure fun inner hinner =>
    builtParts_append hparts hquery inner (TemplatePart.type_mem_merge hinner)

theorem built_variableType (variable_ : ServerVariable) : Built P (variableType variable_) := by
  unfold variableType
  split
  · refine .union ?_
    simp only [List.forall_mem_map]
    exact fun _ _ => .text _
  · exact .text _

theorem builtParts_serverParts (server : Server) : BuiltParts P (serverParts server) := by
  intro inner hinner
  obtain ⟨piece, -, hpiece⟩ := List.mem_map.mp hinner
  split at hpiece
  · cases hpiece
  · split at hpiece <;> cases hpiece
    exact built_variableType _

theorem builtParts_forms (document : Document) (settings : Settings) :
    ∀ form ∈ forms document settings, BuiltParts P form := by
  simp only [forms, List.forall_mem_append, List.forall_mem_map]
  refine ⟨⟨⟨?base, ?absolute⟩, ?server⟩, ?relative⟩
  case base => exact fun text _ => builtParts_text nofun
  case absolute =>
    split
    · refine List.forall_mem_singleton.mpr
        (builtParts_type (.union ?_) (builtParts_type (.keyword _) nofun))
      simp only [List.forall_mem_cons]
      exact ⟨.text _, .text _, nofun⟩
    · exact nofun
  case server =>
    split
    · simp only [List.forall_mem_map]
      exact fun server _ inner hinner =>
        builtParts_serverParts server inner (TemplatePart.type_mem_merge hinner)
    · exact nofun
  case relative =>
    split
    · exact List.forall_mem_singleton.mpr nofun
    · exact nofun

theorem built_input {document : Document} {settings : Settings} {path : List TemplatePart}
    (hpath : BuiltParts P path) {type : TypeExpr} (h : input document settings path = .ok type) :
    Built P type := by
  have hforms := builtParts_forms (P := P) document settings
  unfold input at h
  split at h
  · cases h
  · cases h
    refine .union ?_
    simp only [List.forall_mem_map]
    exact fun form hform => built_prefixed (hforms form hform) hpath

end UrlTemplate

end ApiTypings
