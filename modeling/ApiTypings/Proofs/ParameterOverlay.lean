/-
What a table of parameters becomes when a list is laid over it.

A list is added entry by entry, and an entry replaces the one of its name without moving it.  So
the keys of the table stay in front, and behind them stand the names that are new, each where it
came first; but the parameter under a name is the one that came last.  `Overlay` says this without
the steps, and of tables with distinct keys only one is the overlay.

So a parameter is kept exactly until one of its name comes, wherever that one travels.

Lists added one after the other are one list.  The first entry that leads to no parameter ends the
adding, and what has been added before it stays in the table.
-/
import Mathlib
import ApiTypings.Proofs.Decoding
import ApiTypings.Proofs.Inlining

namespace ApiTypings

open OpenApi

/-- Fields with the same distinct keys are equal if the same is found under each key. -/
theorem Json.eq_of_lookup {α : Type} {first second : List (String × α)}
    (hkeys : first.map Prod.fst = second.map Prod.fst) (hdistinct : (first.map Prod.fst).Nodup)
    (hlookup : ∀ key, lookup key first = lookup key second) : first = second := by
  have hlength : first.length = second.length := by
    rw [← List.length_map Prod.fst, hkeys, List.length_map]
  refine List.ext_getElem hlength fun i hfirst hsecond => ?_
  have hkey : (first[i]).1 = (second[i]).1 := by
    have hmap := List.getElem_of_eq hkeys (i := i) (by simpa using hfirst)
    simpa using hmap
  have hleft : lookup (first[i]).1 first = some (first[i]).2 :=
    lookup_of_mem hdistinct (List.getElem_mem hfirst)
  have hright : lookup (second[i]).1 second = some (second[i]).2 :=
    lookup_of_mem (hkeys ▸ hdistinct) (List.getElem_mem hsecond)
  rw [hlookup, hkey, hright] at hleft
  exact Prod.ext hkey (Option.some.inj hleft).symm

namespace ParameterTable

variable {document : Document} {table : ParameterTable} {entries : List (Referable Parameter)}
  {parameters : List Parameter}

/-! ### Declared parameters -/

/-- The entries of a list are these parameters, in place or behind references. -/
def Declares (document : Document) (entries : List (Referable Parameter))
    (parameters : List Parameter) : Prop :=
  List.Forall₂ (fun entry parameter =>
    document.fetch OpenApi.parameter.decode entry = .ok parameter) entries parameters

/-- Parameters that stand in place are the declared ones. -/
theorem Declares.eq_of_inline {declared : List Parameter}
    (h : Declares document (parameters.map Referable.inline) declared) : declared = parameters := by
  induction parameters generalizing declared with
  | nil =>
      cases h
      rfl
  | cons parameter parameters ih =>
      rw [List.map_cons] at h
      cases h with
      | cons hfetch hrest =>
          cases hfetch
          rw [ih hrest]

/-- A table after the parameters of a list has them put into it one after the other. -/
theorem exists_declares {result : ParameterTable} (h : table.add? document entries = .ok result) :
    ∃ parameters, Declares document entries parameters
      ∧ result = parameters.foldl insert table := by
  induction entries generalizing table with
  | nil =>
      cases h
      exact ⟨[], .nil, rfl⟩
  | cons entry entries ih =>
      rw [add?, add] at h
      cases hfetch : document.fetch OpenApi.parameter.decode entry with
      | error failure =>
          rw [hfetch] at h
          cases h
      | ok parameter =>
          rw [hfetch] at h
          obtain ⟨parameters, hdeclares, hresult⟩ := ih h
          exact ⟨parameter :: parameters, .cons hfetch hdeclares, hresult⟩

/-! ### The overlay of a table -/

/-- The last of the parameters that have the name. -/
def lastNamed? (parameters : List Parameter) (name : String) : Option Parameter :=
  parameters.reverse.find? fun parameter => parameter.name = name

/-- The names of parameters that are no keys of the table, in the order in which they come first. -/
def newNames (table : ParameterTable) (parameters : List Parameter) : List String :=
  ((parameters.map (·.name)).filter fun name => name ∉ table.map Prod.fst).eraseDups

/-- The result is the table with the parameters laid over it. -/
structure Overlay (table : ParameterTable) (parameters : List Parameter)
    (result : ParameterTable) : Prop where
  keys : result.map Prod.fst = table.map Prod.fst ++ newNames table parameters
  values : ∀ name, Json.lookup name result
    = (lastNamed? parameters name).or (Json.lookup name table)
  distinct : (result.map Prod.fst).Nodup
  own : (∀ entry ∈ table, entry.1 = entry.2.name) → ∀ entry ∈ result, entry.1 = entry.2.name

/-- There is one overlay only. -/
theorem Overlay.unique {first second : ParameterTable} (hfirst : Overlay table parameters first)
    (hsecond : Overlay table parameters second) : first = second := by
  refine Json.eq_of_lookup (hfirst.keys.trans hsecond.keys.symm) hfirst.distinct fun name => ?_
  rw [hfirst.values, hsecond.values]

theorem keys_insert (table : ParameterTable) (parameter : Parameter) :
    (table.insert parameter).map Prod.fst = if parameter.name ∈ table.map Prod.fst
      then table.map Prod.fst else table.map Prod.fst ++ [parameter.name] :=
  Json.keys_insertField _ _ _

theorem newNames_cons_of_mem {parameter : Parameter} (h : parameter.name ∈ table.map Prod.fst) :
    newNames table (parameter :: parameters) = newNames table parameters := by
  rw [newNames, List.map_cons, List.filter_cons_of_neg (by simpa using h), newNames]

/-- A name that is new comes in front of the other new ones and is not new to them. -/
theorem newNames_cons_of_not_mem {parameter : Parameter}
    (h : parameter.name ∉ table.map Prod.fst) :
    newNames table (parameter :: parameters)
      = parameter.name :: newNames (table.insert parameter) parameters := by
  rw [newNames, List.map_cons, List.filter_cons_of_pos (by simpa using h), List.eraseDups_cons,
    List.filter_filter, newNames, keys_insert, if_neg h]
  congr 2
  refine List.filter_congr fun name _ => Bool.eq_iff_iff.mpr ?_
  simp only [Bool.and_eq_true, Bool.not_eq_true', beq_eq_false_iff_ne, decide_eq_true_eq,
    List.mem_append, List.mem_singleton, not_or, ne_eq, and_comm]

theorem keys_foldl_insert (table : ParameterTable) (parameters : List Parameter) :
    (parameters.foldl insert table).map Prod.fst
      = table.map Prod.fst ++ newNames table parameters := by
  induction parameters generalizing table with
  | nil => exact (List.append_nil _).symm
  | cons parameter parameters ih =>
      rw [List.foldl_cons, ih, keys_insert]
      by_cases hold : parameter.name ∈ table.map Prod.fst
      · have hkeys : newNames (table.insert parameter) parameters = newNames table parameters := by
          rw [newNames, keys_insert, if_pos hold, newNames]
        rw [if_pos hold, hkeys, newNames_cons_of_mem hold]
      · rw [if_neg hold, newNames_cons_of_not_mem hold, List.append_assoc, List.singleton_append]

/-- The last parameter of a name covers what came before it. -/
theorem lookup_foldl_insert_eq (table : ParameterTable) (parameters : List Parameter)
    (name : String) :
    Json.lookup name (parameters.foldl insert table)
      = (lastNamed? parameters name).or (Json.lookup name table) := by
  induction parameters using List.reverseRecOn with
  | nil => rfl
  | append_singleton parameters last ih =>
      rw [List.foldl_append, List.foldl_cons, List.foldl_nil, insert, lastNamed?,
        List.reverse_concat]
      by_cases hname : last.name = name
      · rw [List.find?_cons_of_pos (by simpa using hname), hname, Json.lookup_insertField_self]
        rfl
      · rw [List.find?_cons_of_neg (by simpa using hname),
          Json.lookup_insertField_other (Ne.symm hname), ih, lastNamed?]

/-- One parameter after the other comes to the overlay. -/
theorem overlay_foldl_insert (hkeys : (table.map Prod.fst).Nodup) (parameters : List Parameter) :
    Overlay table parameters (parameters.foldl insert table) where
  keys := keys_foldl_insert table parameters
  values := lookup_foldl_insert_eq table parameters
  distinct := by
    induction parameters generalizing table with
    | nil => exact hkeys
    | cons parameter parameters ih => exact ih (Json.nodup_keys_insertField hkeys)
  own := by
    intro hown
    induction parameters generalizing table with
    | nil => exact hown
    | cons parameter parameters ih =>
        refine ih (Json.nodup_keys_insertField hkeys) fun entry hentry => ?_
        rcases Json.mem_insertField hentry with rfl | hentry
        · rfl
        · exact hown entry hentry

/-! ### The parameters that stay -/

/-- The parameter is declared, and none that is declared behind it has its name. -/
def Kept (parameters : List Parameter) (parameter : Parameter) : Prop :=
  ∃ before after, parameters = before ++ parameter :: after
    ∧ ∀ other ∈ after, other.name ≠ parameter.name

theorem kept_iff_lastNamed? {parameter : Parameter} :
    Kept parameters parameter ↔ lastNamed? parameters parameter.name = some parameter := by
  rw [lastNamed?, List.find?_eq_some_iff_append]
  constructor
  · rintro ⟨before, after, rfl, hafter⟩
    refine ⟨by simp, after.reverse, before.reverse, by simp, fun other hother => ?_⟩
    simpa using hafter other (List.mem_reverse.mp hother)
  · rintro ⟨-, after, before, hreverse, hafter⟩
    refine ⟨before.reverse, after.reverse, ?_, fun other hother => ?_⟩
    · rw [← List.reverse_reverse parameters, hreverse]
      simp
    · simpa using hafter other (List.mem_reverse.mp hother)

/-- Of parameters with different names every one is kept. -/
theorem kept_of_nodup (hnames : (parameters.map (·.name)).Nodup) {parameter : Parameter}
    (h : parameter ∈ parameters) : Kept parameters parameter := by
  obtain ⟨before, after, rfl⟩ := List.append_of_mem h
  refine ⟨before, after, rfl, fun other hother hname => ?_⟩
  rw [List.map_append, List.map_cons, List.nodup_append] at hnames
  refine (List.nodup_cons.mp hnames.2.1).1 ?_
  rw [← hname]
  exact List.mem_map_of_mem hother

/-- **The last parameter of a name is the one in the table.** -/
theorem lookup_of_kept {parameter : Parameter} (h : Kept parameters parameter)
    (table : ParameterTable) :
    Json.lookup parameter.name (parameters.foldl insert table) = some parameter := by
  rw [lookup_foldl_insert_eq, kept_iff_lastNamed?.mp h, Option.some_or]

/-- A table has the parameters that are kept of those put into it. -/
theorem mem_foldl_insert_iff {parameter : Parameter} :
    parameter ∈ (parameters.foldl insert []).map Prod.snd ↔ Kept parameters parameter := by
  constructor
  · intro h
    obtain ⟨⟨name, parameter⟩, hentry, rfl⟩ := List.mem_map.mp h
    have hkeys : (([] : ParameterTable).map Prod.fst).Nodup := List.nodup_nil
    have hoverlay := overlay_foldl_insert hkeys parameters
    obtain rfl : name = parameter.name := hoverlay.own nofun _ hentry
    have hlookup := Json.lookup_of_mem hoverlay.distinct hentry
    rw [lookup_foldl_insert_eq] at hlookup
    exact kept_iff_lastNamed?.mpr (Option.or_none.symm.trans hlookup)
  · exact fun h => List.mem_map_of_mem (Json.mem_of_lookup (lookup_of_kept h []))

theorem mem_inLocation_iff {parameter : Parameter} {location : Location} :
    parameter ∈ (parameters.foldl insert []).inLocation location
      ↔ Kept parameters parameter ∧ parameter.location = location := by
  rw [inLocation, List.mem_filter, mem_foldl_insert_iff, decide_eq_true_iff]

/-! ### Adding lists of entries -/

/-- The entries in front are put into the table, whatever stands behind them. -/
theorem add_append_of_declares (h : Declares document entries parameters)
    (table : ParameterTable) (more : List (Referable Parameter)) :
    add document table (entries ++ more) = add document (parameters.foldl insert table) more := by
  induction h generalizing table with
  | nil => rfl
  | cons hfetch hdeclares ih =>
      rw [List.cons_append, add, hfetch]
      exact ih (table.insert _)

/-- Adding goes on with what a list comes to, and ends with it if the list has ended it. -/
theorem add_append (document : Document) (table : ParameterTable)
    (entries more : List (Referable Parameter)) :
    add document table (entries ++ more)
      = match add document table entries with
        | (result, none) => add document result more
        | stopped => stopped := by
  induction entries generalizing table with
  | nil => rfl
  | cons entry entries ih =>
      rw [List.cons_append, add, add]
      cases document.fetch OpenApi.parameter.decode entry with
      | error failure => rfl
      | ok parameter => exact ih (table.insert parameter)

theorem add?_append (document : Document) (table : ParameterTable)
    (entries more : List (Referable Parameter)) :
    add? document table (entries ++ more)
      = add? document table entries >>= fun result => add? document result more := by
  rw [add?, add_append, add?]
  obtain ⟨result, stopped⟩ := add document table entries
  cases stopped <;> rfl

theorem lastNamed?_append (shared own : List Parameter) (name : String) :
    lastNamed? (shared ++ own) name = (lastNamed? own name).or (lastNamed? shared name) := by
  rw [lastNamed?, List.reverse_append, List.find?_append, lastNamed?, lastNamed?]

theorem exists_lastNamed? {parameter : Parameter} (h : parameter ∈ parameters) :
    ∃ last ∈ parameters, last.name = parameter.name
      ∧ lastNamed? parameters parameter.name = some last := by
  have hsome : (lastNamed? parameters parameter.name).isSome := by
    rw [lastNamed?, List.find?_isSome]
    exact ⟨parameter, List.mem_reverse.mpr h, by simp⟩
  obtain ⟨last, hlast⟩ := Option.isSome_iff_exists.mp hsome
  refine ⟨last, List.mem_reverse.mp (List.mem_of_find?_eq_some hlast), ?_, hlast⟩
  simpa using List.find?_some hlast

/-- What adding entries to a table comes to: the overlay of the parameters in front of the first
entry that leads to none, and the failure of this one if there is one. -/
structure Adding (document : Document) (table : ParameterTable)
    (entries : List (Referable Parameter)) : Prop where
  all : ∀ parameters, Declares document entries parameters →
    ∃ result, add document table entries = (result, none)
      ∧ ∀ other, Overlay table parameters other ↔ other = result
  upTo : ∀ before entry after parameters failure, entries = before ++ entry :: after →
    Declares document before parameters →
      document.fetch OpenApi.parameter.decode entry = .error failure →
        ∃ result, add document table entries = (result, some failure)
          ∧ ∀ other, Overlay table parameters other ↔ other = result
  append : ∀ more, add document table (entries ++ more)
    = match add document table entries with
      | (result, none) => add document result more
      | stopped => stopped

/-- What merging two lists comes to: adding them as one, so that the second one wins. -/
structure Merging (document : Document) (shared own : List (Referable Parameter)) : Prop where
  append : merge? document shared own = add? document [] (shared ++ own)
  wins : ∀ first second, Declares document shared first → Declares document own second →
    ∃ result, merge? document shared own = .ok result
      ∧ (∀ name, Json.lookup name result = (lastNamed? second name).or (lastNamed? first name))
      ∧ ∀ parameter ∈ second, ∃ last ∈ second, last.name = parameter.name
        ∧ Json.lookup parameter.name result = some last

theorem overlay_iff (hkeys : (table.map Prod.fst).Nodup) (other : ParameterTable) :
    Overlay table parameters other ↔ other = parameters.foldl insert table :=
  ⟨fun h => h.unique (overlay_foldl_insert hkeys parameters),
    fun h => h ▸ overlay_foldl_insert hkeys parameters⟩

theorem adding (hkeys : (table.map Prod.fst).Nodup) : Adding document table entries where
  all := by
    intro parameters hdeclares
    have hadd := add_append_of_declares hdeclares table []
    rw [List.append_nil] at hadd
    exact ⟨parameters.foldl insert table, hadd, overlay_iff hkeys⟩
  upTo := by
    rintro before entry after parameters failure rfl hdeclares hfails
    refine ⟨parameters.foldl insert table, ?_, overlay_iff hkeys⟩
    rw [add_append_of_declares hdeclares, add, hfails]
  append := add_append document table entries

theorem merging (document : Document) (shared own : List (Referable Parameter)) :
    Merging document shared own where
  append := (add?_append document [] shared own).symm
  wins := by
    intro first second hfirst hsecond
    have hmerge : merge? document shared own = .ok ((first ++ second).foldl insert []) := by
      have hadd := add_append_of_declares (List.rel_append hfirst hsecond) [] []
      rw [List.append_nil] at hadd
      rw [merge?, ← add?_append, add?, hadd]
      rfl
    have hlookup : ∀ name, Json.lookup name ((first ++ second).foldl insert [])
        = (lastNamed? second name).or (lastNamed? first name) := by
      intro name
      rw [lookup_foldl_insert_eq, lastNamed?_append]
      exact Option.or_none
    refine ⟨_, hmerge, hlookup, fun parameter hparameter => ?_⟩
    obtain ⟨last, hlast, hname, hfound⟩ := exists_lastNamed? hparameter
    refine ⟨last, hlast, hname, ?_⟩
    rw [hlookup, hfound]
    rfl

/-- **Adding parameters is laying them over the table.**  The keys stay where they are, new names
come behind them, and the last parameter of a name is the one under it.  The first entry that leads
to no parameter is the failure, and what comes before it is in the table.  Two lists are added like
one, so where the parameters of a path and of an operation are merged those of the operation win. -/
theorem adding_and_merging (document : Document) {table : ParameterTable}
    (hkeys : (table.map Prod.fst).Nodup) (shared own : List (Referable Parameter)) :
    Adding document table own ∧ Merging document shared own :=
  ⟨adding hkeys, merging document shared own⟩

/-- A name of the table and one that is new, twice and once behind a reference; and an entry that
leads nowhere. -/
theorem adding_and_merging_reference :
    let id : Parameter := { name := "id", location := .path, required := true }
    let limit : Parameter := { name := "limit" }
    let document : Document := ⟨.object [("id", .object [("name", .string "id"),
      ("in", .string "path"), ("required", .boolean true)])], {}⟩
    let table : ParameterTable := [("limit", { limit with required := true }), ("sort", {})]
    let entries : List (Referable Parameter) :=
      [.inline { id with location := .query }, .inline limit, .reference "#/id"]
    (table.map Prod.fst).Nodup
      ∧ (Adding document table entries ∧ Merging document [.reference "#/absent"] entries)
      ∧ add document table entries = ([("limit", limit), ("sort", {}), ("id", id)], none)
      ∧ merge? document [.reference "#/absent"] entries
        = .error (.reference (.missing "#/absent" "absent")) := by
  intro id limit document table entries
  have hkeys : (table.map Prod.fst).Nodup := by decide
  have hid : document.fetch OpenApi.parameter.decode (.reference "#/id") = .ok id := by
    have hvalue : Json.resolveChain document.tree "#/id" = .ok (.object [("name", .string "id"),
        ("in", .string "path"), ("required", .boolean true)]) := by decide +kernel
    rw [Document.fetch_reference hvalue]
    rfl
  have habsent : Json.resolveChain document.tree "#/absent"
      = .error (.missing "#/absent" "absent") := by decide +kernel
  have hmerge : merge? document [.reference "#/absent"] entries
      = .error (.reference (.missing "#/absent" "absent")) := by
    rw [merge?, add?, add, Document.fetch, Document.target, habsent]
    rfl
  have hdeclares : Declares document entries [{ id with location := .query }, limit, id] :=
    .cons rfl (.cons rfl (.cons hid .nil))
  have hlaws := adding_and_merging document hkeys [.reference "#/absent"] entries
  obtain ⟨result, hadd, hresult⟩ := hlaws.1.all _ hdeclares
  obtain rfl := (hresult _).mp (overlay_foldl_insert hkeys _)
  exact ⟨hkeys, hlaws, hadd, hmerge⟩

end ParameterTable
end ApiTypings
