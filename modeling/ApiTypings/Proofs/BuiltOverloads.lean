/-
How the overloads of an operation are built.

An overload shows types as arguments, result and type parameters.  All of them are built in
the ways of `TypeExpr.Built`: URLs, bodies, headers and responses from decoded parts, and
the parts whether they stood in place or behind a reference.  Beside the types a declaration
shows names only, which the generator either has by itself or makes out of words.
-/
import Mathlib
import ApiTypings.Overload
import ApiTypings.Proofs.BuiltUrls
import ApiTypings.Proofs.Inlining
import ApiTypings.Proofs.Names
import ApiTypings.Proofs.StatusCodes

namespace ApiTypings

open OpenApi Inspect TypeExpr

/-! ### Computations that may fail -/

namespace Build

variable {α β : Type} {P : α → Prop} {Q : β → Prop}

/-- Every result that is no failure has the property. -/
def Always (P : α → Prop) (build : Build α) : Prop :=
  Inspect.Always (fun result => ∀ value, result = .ok value → P value) build.run

theorem always_pure {value : α} (h : P value) : Always P (pure value) :=
  Inspect.always_pure fun _ hvalue => by cases hvalue; exact h

theorem always_ofExcept {result : Except Failure α} (h : ∀ value, result = .ok value → P value) :
    Always P (ofExcept result) :=
  Inspect.always_pure h

theorem always_lift {inspect : Inspect α} (h : Inspect.Always P inspect) :
    Always P (ExceptT.lift inspect) := by
  intro findings value hvalue
  cases hvalue
  exact h findings

theorem Always.bind {build : Build α} {next : α → Build β} (h : Always P build)
    (hnext : ∀ value, P value → Always Q (next value)) : Always Q (build >>= next) := by
  show Inspect.Always _ (build.run >>= ExceptT.bindCont next)
  refine Inspect.Always.bind h fun result hresult => ?_
  cases result with
  | ok value => exact hnext value (hresult value rfl)
  | error failure => exact Inspect.always_pure nofun

end Build

/-! ### What declarations show -/

variable {P : String → Prop}

/-- The names of the tags of a documentation comment. -/
def Docs.tagNames (docs : Docs) : List String := docs.tags.map DocTag.name

/-- The types that a signature shows. -/
def Signature.types (signature : Signature) : List TypeExpr :=
  signature.typeParameters.flatMap (fun parameter =>
      parameter.constraint.toList ++ parameter.default.toList)
    ++ signature.arguments.map Argument.type ++ [signature.returns]

/-- The names that a signature shows. -/
def Signature.names (signature : Signature) : List String :=
  signature.name :: (signature.typeParameters.map TypeParameter.name
    ++ signature.arguments.map Argument.name ++ signature.docs.toList.flatMap Docs.tagNames)

/-- The names that an alias shows. -/
def Alias.names (declared : Alias) : List String :=
  declared.name :: declared.docs.toList.flatMap Docs.tagNames

/-- The types of a signature are built, and its names are names. -/
structure Signature.Built (P : String → Prop) (signature : Signature) : Prop where
  types : ∀ type ∈ signature.types, type.Built P
  names : ∀ name ∈ signature.names, Text.IsName name

structure Alias.Built (P : String → Prop) (declared : Alias) : Prop where
  type : declared.type.Built P
  names : ∀ name ∈ declared.names, Text.IsName name

/-- The names that declarations show whatever the document says. -/
def fixedNames : List String :=
  ["fetch", "T", "input", "init", "deprecated", "summary", "example", "default"]

theorem isName_of_mem_fixedNames {name : String} (h : name ∈ fixedNames) : Text.IsName name := by
  have hall : ∀ name ∈ fixedNames, Text.isIdentifier name = true := by decide
  exact Text.isName_of_isIdentifier (hall name h)

theorem Docs.eq_of_nonEmpty? {docs found : Docs} (h : docs.nonEmpty? = some found) :
    found = docs := by
  unfold Docs.nonEmpty? at h
  split at h <;> cases h
  rfl

/-! ### Overloads -/

namespace Overload

theorem always_headerMembers {headers : List Parameter}
    (h : ∀ header ∈ headers, header.Proper P) :
    Always (fun members => members.map Member.name = headers.map Parameter.name
      ∧ ∀ member ∈ members, Built P member.type) (headerMembers headers) :=
  (traverses_headerMembers.always_map_eq fun _ _ => rfl).and
    (traverses_headerMembers.always fun header hheader =>
      UrlTemplate.always_valueType (h header hheader))

/-- The content type is added only where no header has its name, in whatever case. -/
theorem nodup_headers {headers : List Parameter} (h : (headers.map Parameter.name).Nodup)
    (contentType : Option String) :
    ((contentTypeMember headers contentType).map Member.name
      ++ headers.map Parameter.name).Nodup := by
  unfold contentTypeMember
  split
  · exact h
  · split
    · exact h
    · rename_i hnone
      refine List.nodup_cons.mpr ⟨fun hmem => hnone ?_, h⟩
      obtain ⟨header, hheader, hname⟩ := List.mem_map.mp hmem
      refine List.any_eq_true.mpr ⟨header, hheader, ?_⟩
      rw [hname]
      show sameHeader "Content-Type" "content-type" = true
      decide

theorem always_headersType {table : ParameterTable} (h : table.Proper P)
    (contentType : Option String) :
    Always (fun type => ∀ inner ∈ type, Built P inner) (headersType table contentType) := by
  obtain ⟨hnames, hparameters⟩ := h.inLocation .header
  refine (always_headerMembers hparameters).bind fun members hmembers => ?_
  dsimp only
  split
  · exact always_pure nofun
  · rename_i hne
    refine always_pure fun inner hinner => ?_
    cases hinner
    refine .applied (by decide) (.object (by simpa using hne) ?_ ?_)
    · rw [List.map_append, hmembers.1]
      exact nodup_headers hnames contentType
    · refine List.forall_mem_append.mpr ⟨?_, hmembers.2⟩
      unfold contentTypeMember
      split
      · exact List.forall_mem_nil _
      · split
        · exact List.forall_mem_nil _
        · exact List.forall_mem_singleton.mpr (.text _)

theorem built_without {base : String} (hbase : base ∈ helperNames) (keys : List String) :
    Built P (without base keys) := by
  refine .helper (by decide) (List.forall_mem_cons.mpr ⟨.name hbase, ?_⟩)
  refine List.forall_mem_singleton.mpr (.union ?_)
  simp only [List.forall_mem_map]
  exact fun _ _ => .text _

theorem always_requestBodies {settings : Settings} {content : List (String × MediaType)}
    (h : ∀ entry ∈ content, entry.2.Proper P) :
    Always (fun bodies => ∀ body ∈ bodies, Built P body.2) (requestBodies settings content) :=
  (traverses_requestBodies settings).always fun entry hentry =>
    always_ofRequestBody (h entry hentry)

theorem always_responseTypes {document : Document}
    {responses : List (StatusCode.CodeSet × Referable Response)}
    (h : ∀ entry ∈ responses, ∀ response,
      document.fetch OpenApi.response.decode entry.2 = .ok response → response.Proper P) :
    Build.Always (fun types => ∀ type ∈ types, Built P type)
      (responseTypes document responses) := by
  induction responses with
  | nil => exact Build.always_pure nofun
  | cons entry responses ih =>
      rw [responseTypes]
      refine (Build.always_ofExcept (h entry List.mem_cons_self)).bind fun response hresponse => ?_
      refine (Build.always_lift (always_ofResponse hresponse)).bind fun type htype => ?_
      refine (ih fun e he => h e (List.mem_cons_of_mem _ he)).bind fun types htypes => ?_
      exact Build.always_pure (List.forall_mem_cons.mpr ⟨htype, htypes⟩)

theorem built_returnType {responses : List TypeExpr} (h : ∀ type ∈ responses, Built P type) :
    Built P (returnType responses) := by
  unfold returnType
  split
  · exact .promise (.name (by decide))
  · refine .promise (.intersection ?_)
    simp only [List.forall_mem_cons]
    exact ⟨built_without (by decide) _, .union h, nofun⟩

theorem built_initArgument {method : Method} {body : Option RequestBody}
    {bodyType headers : Option TypeExpr} (hbody : ∀ type ∈ bodyType, Built P type)
    (hheaders : ∀ type ∈ headers, Built P type) :
    Built P (initArgument method body bodyType headers).type := by
  unfold initArgument
  dsimp only
  refine .intersection ?_
  simp only [List.forall_mem_cons]
  refine ⟨built_without (by decide) _, .object (by simp) ?_ ?_, List.forall_mem_nil _⟩
  · cases bodyType <;> cases headers <;> simp [Member.property]
  · simp only [List.forall_mem_append, List.forall_mem_cons, List.forall_mem_map]
    exact ⟨⟨⟨.text _, List.forall_mem_nil _⟩,
        fun type htype => hbody type (Option.mem_toList.mp htype)⟩,
      fun type htype => hheaders type (Option.mem_toList.mp htype)⟩

/-- What the overloads of an operation have in common is built. -/
structure Common.Built (P : String → Prop) (common : Common) : Prop where
  table : common.table.Proper P
  tagNames : ∀ docs ∈ common.docs, ∀ name ∈ docs.tagNames, Text.IsName name
  typeParameters : ∀ parameter ∈ common.typeParameters, Text.IsName parameter.name
    ∧ (∀ type ∈ parameter.constraint, type.Built P) ∧ ∀ type ∈ parameter.default, type.Built P
  input : common.input.Built P
  returns : common.returns.Built P

theorem tagNames_docsOf (operation : Operation) :
    ∀ docs ∈ docsOf operation, ∀ name ∈ docs.tagNames, Text.IsName name := by
  intro docs hdocs
  rw [Docs.eq_of_nonEmpty? hdocs, Docs.tagNames]
  refine List.forall_mem_map.mpr (List.forall_mem_append.mpr ⟨?_, ?_⟩)
  · split
    · exact List.forall_mem_singleton.mpr (isName_of_mem_fixedNames (by simp [fixedNames]))
    · exact nofun
  · split
    · exact List.forall_mem_singleton.mpr (isName_of_mem_fixedNames (by simp [fixedNames]))
    · exact nofun

theorem built_discriminator (settings : Settings) : ∀ parameter ∈ discriminator settings,
    Text.IsName parameter.name
      ∧ (∀ type ∈ parameter.constraint, Built P type)
      ∧ ∀ type ∈ parameter.default, Built P type := by
  intro parameter hparameter
  unfold discriminator at hparameter
  split at hparameter
  · cases hparameter
  · split at hparameter
    · cases hparameter
    · obtain rfl := List.mem_singleton.mp hparameter
      refine ⟨isName_of_mem_fixedNames (by simp [fixedNames]), fun type htype => ?_,
        fun type htype => ?_⟩
      · cases htype
        exact .text _
      · dsimp only at htype
        split at htype <;> cases htype
        exact .text _

theorem always_ofBody {common : Common} (h : common.Built P) {body : Option (String × TypeExpr)}
    (hbody : ∀ entry ∈ body, Built P entry.2) :
    Always (Signature.Built P) (ofBody common body) := by
  refine (always_headersType h.table _).bind fun headers hheaders => always_pure ⟨?types, ?names⟩
  case types =>
    simp only [Signature.types, List.forall_mem_append, List.forall_mem_flatMap,
      List.forall_mem_map, List.forall_mem_cons]
    refine ⟨⟨fun parameter hparameter => ⟨?_, ?_⟩, h.input, built_initArgument ?_ hheaders, nofun⟩,
      h.returns, nofun⟩
    · exact fun type htype =>
        (h.typeParameters parameter hparameter).2.1 type (Option.mem_toList.mp htype)
    · exact fun type htype =>
        (h.typeParameters parameter hparameter).2.2 type (Option.mem_toList.mp htype)
    · intro type htype
      obtain ⟨entry, hentry, rfl⟩ := Option.map_eq_some_iff.mp htype
      exact hbody entry hentry
  case names =>
    simp only [Signature.names, List.forall_mem_append, List.forall_mem_flatMap,
      List.forall_mem_map, List.forall_mem_cons]
    refine ⟨isName_of_mem_fixedNames (by simp [fixedNames]),
      ⟨fun parameter hparameter => (h.typeParameters parameter hparameter).1,
        isName_of_mem_fixedNames (by simp [fixedNames]),
        isName_of_mem_fixedNames (by simp [fixedNames, initArgument]), nofun⟩, ?_⟩
    exact fun docs hdocs => h.tagNames docs (Option.mem_toList.mp hdocs)

theorem always_ofBodies {common : Common} (h : common.Built P)
    {bodies : List (Option (String × TypeExpr))}
    (hbodies : ∀ body ∈ bodies, ∀ entry ∈ body, Built P entry.2) :
    Always (fun signatures => ∀ signature ∈ signatures, signature.Built P)
      (ofBodies common bodies) :=
  (traverses_ofBodies common).always fun body hbody => always_ofBody h (hbodies body hbody)

/-- Each entry keeps its response. -/
theorem map_snd_expandResponses {method : Method} {pattern : String}
    {responses : List (String × Referable Response)}
    {expanded : List (StatusCode.CodeSet × Referable Response)}
    (h : expandResponses method pattern responses = .ok expanded) :
    expanded.map Prod.snd = responses.map Prod.snd := by
  unfold expandResponses at h
  split at h
  · rename_i sets hsets
    cases h
    exact StatusCode.values_of_expand hsets
  · cases h

theorem proper_expandResponses {document : Document} {method : Method} {pattern : String}
    {responses : List (String × Referable Response)}
    (h : ∀ entry ∈ responses, ∀ response,
      document.fetch OpenApi.response.decode entry.2 = .ok response → response.Proper P)
    {expanded : List (StatusCode.CodeSet × Referable Response)}
    (hexpanded : expandResponses method pattern responses = .ok expanded) :
    ∀ entry ∈ expanded, ∀ response,
      document.fetch OpenApi.response.decode entry.2 = .ok response → response.Proper P := by
  intro entry hentry
  have hmem : entry.2 ∈ responses.map Prod.snd := by
    rw [← map_snd_expandResponses hexpanded]
    exact List.mem_map.mpr ⟨entry, hentry, rfl⟩
  obtain ⟨original, horiginal, heq⟩ := List.mem_map.mp hmem
  rw [← heq]
  exact h original horiginal

theorem proper_fetchBody {document : Document} {operation : Operation}
    (h : operation.Proper document P) {body : Option RequestBody}
    (hbody : fetchBody document operation = .ok body) : ∀ inner ∈ body, inner.Proper P := by
  intro inner hinner
  cases hinner
  unfold fetchBody at hbody
  cases hentry : operation.requestBody with
  | none =>
      rw [hentry] at hbody
      cases hbody
  | some entry =>
      rw [hentry] at hbody
      cases hfetch : document.fetch OpenApi.requestBody.decode entry with
      | error failure => simp [hfetch, Except.map] at hbody
      | ok fetched =>
          simp only [hfetch, Except.map] at hbody
          cases hbody
          exact h.requestBody entry hentry _ hfetch

theorem always_ofOperation {document : Document} {settings : Settings} {pattern : String}
    {shared : ParameterTable} (hshared : shared.Proper P) {method : Method}
    {operation : Operation} (hoperation : operation.Proper document P) :
    Build.Always (fun signatures => ∀ signature ∈ signatures, signature.Built P)
      (ofOperation document settings pattern shared method operation) := by
  refine (Build.always_ofExcept fun table htable =>
    hshared.add? hoperation.parameters htable).bind fun table htable => ?_
  refine (Build.always_ofExcept fun body hbody =>
    proper_fetchBody hoperation hbody).bind fun body hbody => ?_
  have hcontent : ∀ entry ∈ (body.map (·.content)).getD [], entry.2.Proper P := by
    cases body with
    | none => exact nofun
    | some body => exact hbody body rfl
  refine (Build.always_lift (always_requestBodies hcontent)).bind fun bodies hbodies => ?_
  refine (Build.always_ofExcept fun expanded hexpanded =>
    proper_expandResponses hoperation.responses hexpanded).bind fun expanded hexpanded => ?_
  refine (always_responseTypes hexpanded).bind fun responses hresponses => ?_
  refine (Build.always_lift (UrlTemplate.always_path htable pattern)).bind fun path hpath => ?_
  refine (Build.always_ofExcept fun input hinput =>
    UrlTemplate.built_input hpath hinput).bind fun input hinput => ?_
  refine Build.always_lift (always_ofBodies ⟨htable, tagNames_docsOf operation,
    built_discriminator settings, hinput, built_returnType hresponses⟩ ?_)
  split
  · exact List.forall_mem_singleton.mpr nofun
  · simp only [List.forall_mem_map]
    intro body hmem entry hentry
    cases hentry
    exact hbodies body hmem

end Overload
end ApiTypings
