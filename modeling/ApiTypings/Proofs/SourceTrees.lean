/-
The trees that are read have distinct keys.

Both readers build objects field by field, and a field that comes again replaces the one
before it.  So whatever text a document has, the keys of its tree are distinct at every
depth; what is shown of documents with distinct keys holds of every document that is read.
-/
import Mathlib
import ApiTypings.Proofs.Decoding
import ApiTypings.SourceText

namespace ApiTypings

/-! ### JSON -/

namespace Json

/-- A token that is a value has distinct keys, being a scalar. -/
def Token.Distinct (token : Token) : Prop := ∀ value, token = .scalar value → value.Distinct

/-- What a container holds so far has distinct keys. -/
def Frame.Distinct : Frame → Prop
  | .array items => ∀ item ∈ items, Json.Distinct item
  | .object fields _ => (Json.object fields).Distinct

def Expectation.Distinct : Expectation → Prop
  | .keyOrClose fields => (Json.object fields).Distinct
  | .key fields => (Json.object fields).Distinct
  | .afterValue found => Json.Distinct found
  | _ => True

/-- What a reading has read so far has distinct keys. -/
structure Reading.Distinct (reading : Reading) : Prop where
  stack : ∀ frame ∈ reading.stack, frame.Distinct
  next : reading.next.Distinct

theorem distinct_empty : (object []).Distinct := distinct_object.mpr ⟨List.nodup_nil, nofun⟩

theorem distinct_scanToken? {text rest : List Char} {token : Token}
    (h : scanToken? text = some (token, rest)) : token.Distinct := by
  intro value hvalue
  subst hvalue
  unfold scanToken? at h
  split at h
  all_goals first
    | cases h
    | (obtain ⟨scanned, -, heq⟩ := Option.map_eq_some_iff.mp h
       cases heq
       simp [Json.Distinct])

theorem distinct_tokensFrom {found tokens : List Token} {text : List Char}
    (hfound : ∀ token ∈ found, token.Distinct) (h : tokensFrom found text = some tokens) :
    ∀ token ∈ tokens, token.Distinct := by
  induction found, text using tokensFrom.induct with
  | case1 found =>
      rw [tokensFrom] at h
      cases h
      simpa using hfound
  | case2 found c rest hblank ih =>
      rw [tokensFrom, if_pos hblank] at h
      exact ih hfound h
  | case3 found c rest hblank hnone =>
      rw [tokensFrom, if_neg hblank, hnone] at h
      cases h
  | case4 found c rest hblank token after hsome hlength ih =>
      rw [tokensFrom, if_neg hblank, hsome] at h
      simp only [if_pos hlength] at h
      exact ih (List.forall_mem_cons.mpr ⟨distinct_scanToken? hsome, hfound⟩) h
  | case5 found c rest hblank token after hsome hlength =>
      rw [tokensFrom, if_neg hblank, hsome] at h
      simp only [if_neg hlength] at h
      cases h

theorem distinct_beginValue? {stack : List Frame} {token : Token} {reading : Reading}
    (hstack : ∀ frame ∈ stack, frame.Distinct) (htoken : token.Distinct)
    (h : Reading.beginValue? stack token = some reading) : reading.Distinct := by
  unfold Reading.beginValue? at h
  split at h
  · cases h
    exact ⟨hstack, htoken _ rfl⟩
  · split at h <;> cases h
    exact ⟨List.forall_mem_cons.mpr ⟨nofun, hstack⟩, trivial⟩
  · split at h <;> cases h
    exact ⟨hstack, distinct_empty⟩
  · cases h

/-- Each token keeps what has been read distinct. -/
theorem distinct_step? {reading next : Reading} {token : Token} (hreading : reading.Distinct)
    (htoken : token.Distinct) (h : reading.step? token = some next) : next.Distinct := by
  obtain ⟨stack, expected⟩ := reading
  obtain ⟨hstack, hnext⟩ := hreading
  unfold Reading.step? at h
  dsimp only at h hstack hnext
  split at h
  · cases h
    exact ⟨fun frame hframe => hstack frame (List.mem_cons_of_mem _ hframe),
      distinct_array.mpr nofun⟩
  · exact distinct_beginValue? hstack htoken h
  · exact distinct_beginValue? hstack htoken h
  · cases h
    exact ⟨hstack, hnext⟩
  · cases h
    exact ⟨List.forall_mem_cons.mpr ⟨hnext, hstack⟩, trivial⟩
  · cases h
    exact ⟨List.forall_mem_cons.mpr ⟨hnext, hstack⟩, trivial⟩
  · cases h
    exact ⟨hstack, trivial⟩
  · cases h
    obtain ⟨hframe, hstack⟩ := List.forall_mem_cons.mp hstack
    have hitems : Frame.Distinct (.array (_ :: _)) := List.forall_mem_cons.mpr ⟨hnext, hframe⟩
    exact ⟨List.forall_mem_cons.mpr ⟨hitems, hstack⟩, trivial⟩
  · cases h
    obtain ⟨hframe, hstack⟩ := List.forall_mem_cons.mp hstack
    have hitems : Frame.Distinct (.array (_ :: _)) := List.forall_mem_cons.mpr ⟨hnext, hframe⟩
    exact ⟨hstack, distinct_array.mpr fun item hitem => hitems item (List.mem_reverse.mp hitem)⟩
  · cases h
    obtain ⟨hframe, hstack⟩ := List.forall_mem_cons.mp hstack
    exact ⟨hstack, distinct_insertField hnext hframe⟩
  · cases h
    obtain ⟨hframe, hstack⟩ := List.forall_mem_cons.mp hstack
    exact ⟨hstack, distinct_insertField hnext hframe⟩
  · cases h

theorem distinct_foldlM {tokens : List Token} (htokens : ∀ token ∈ tokens, token.Distinct)
    {reading last : Reading} (hreading : reading.Distinct)
    (h : tokens.foldlM Reading.step? reading = some last) : last.Distinct := by
  induction tokens generalizing reading with
  | nil =>
      cases h
      exact hreading
  | cons token tokens ih =>
      rw [List.foldlM_cons] at h
      obtain ⟨next, hnext, h⟩ := Option.bind_eq_some_iff.mp h
      obtain ⟨htoken, htokens⟩ := List.forall_mem_cons.mp htokens
      exact ih htokens (distinct_step? hreading htoken hnext) h

theorem distinct_of_read? {text : String} {tree : Json} (h : read? text = some tree) :
    tree.Distinct := by
  obtain ⟨tokens, htokens, h⟩ := Option.bind_eq_some_iff.mp h
  obtain ⟨reading, hreading, h⟩ := Option.bind_eq_some_iff.mp h
  have hstart : Reading.start.Distinct := ⟨nofun, trivial⟩
  have hdistinct := distinct_foldlM (distinct_tokensFrom (by simp) htokens) hstart hreading
  unfold Reading.result? at h
  split at h
  · cases h
    exact hdistinct.next
  · cases h

end Json

/-! ### YAML -/

namespace Yaml.Value

theorem distinct_toJson (number : Number) : number.toJson.Distinct := by
  cases number <;> simp [Number.toJson, Json.Distinct]

mutual
theorem distinct_of_toJson? : ∀ {value : Value} {tree : Json}, value.toJson? = some tree →
    tree.Distinct
  | null, _, h => by cases h; simp [Json.Distinct]
  | boolean _, _, h => by cases h; simp [Json.Distinct]
  | number value, _, h => by cases h; exact distinct_toJson value
  | string _, _, h => by cases h; simp [Json.Distinct]
  | sequence items, _, h => by
      obtain ⟨trees, htrees, rfl⟩ := Option.map_eq_some_iff.mp h
      exact Json.distinct_array.mpr (distinct_of_itemsToJson? htrees)
  | mapping entries, _, h => by
      obtain ⟨fields, hfields, rfl⟩ := Option.map_eq_some_iff.mp h
      exact distinct_of_fieldsToJson? Json.distinct_empty hfields
  | tagged _ value, tree, h =>
      have hvalue : value.toJson? = some tree := h
      distinct_of_toJson? hvalue

theorem distinct_of_itemsToJson? : ∀ {items : List Value} {trees : List Json},
    itemsToJson? items = some trees → ∀ tree ∈ trees, tree.Distinct
  | [], _, h => by cases h; exact nofun
  | item :: rest, _, h => by
      obtain ⟨first, hfirst, h⟩ := Option.bind_eq_some_iff.mp h
      obtain ⟨trees, htrees, h⟩ := Option.bind_eq_some_iff.mp h
      cases h
      exact List.forall_mem_cons.mpr ⟨distinct_of_toJson? hfirst, distinct_of_itemsToJson? htrees⟩

theorem distinct_of_fieldsToJson? : ∀ {entries : List (Value × Value)}
    {fields result : List (String × Json)}, (Json.object fields).Distinct →
    fieldsToJson? fields entries = some result → (Json.object result).Distinct
  | [], _, _, hfields, h => by cases h; exact hfields
  | (key, value) :: rest, _, _, hfields, h => by
      obtain ⟨text, -, h⟩ := Option.bind_eq_some_iff.mp h
      obtain ⟨tree, htree, h⟩ := Option.bind_eq_some_iff.mp h
      exact distinct_of_fieldsToJson?
        (Json.distinct_insertField (distinct_of_toJson? htree) hfields) h
end

end Yaml.Value

/-- **The tree of a text that is read has distinct keys.** -/
theorem SourceText.distinct_of_read {text : String} {tree : Json} (h : read text = .ok tree) :
    tree.Distinct := by
  unfold read at h
  split at h
  · rename_i value hvalue
    cases h
    exact Json.distinct_of_read? hvalue
  · split at h
    · cases h
    · split at h
      · cases h
      · split at h
        · rename_i value hvalue
          cases h
          exact Yaml.Value.distinct_of_toJson? hvalue
        · cases h

end ApiTypings
