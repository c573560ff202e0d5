/-
What the keys of a list stand for, and where two of them stand for the same code.

The codes of a key are found in two steps, since `default` is what the other keys leave over: the
keys are read first, and their claims then decide the sets.  For one code it is enough to know
which keys the list declares.  The code is in the set of its own key, in the set of its class if it
is registered, and in the set of `default` if it is registered and neither of the two is declared.
All that is proved here follows from this reading of a set.

So `default` never meets another key, and two classes never meet either.  A code that is declared
next to its own class is different: a class does not leave out what is declared beside it, as
`default` does, and such a code is in two sets.
-/
import Mathlib
import ApiTypings.Proofs.ResponseKeys

namespace ApiTypings.StatusCode

variable {α : Type} {registry : Registry} {entries : List (String × α)}
  {sets : List (CodeSet × α)} {pair : (String × α) × (CodeSet × α)} {code : Nat}

/-! ### The codes of one key -/

theorem Registry.mem_between {low high : Nat} :
    code ∈ registry.between low high ↔ code ∈ registry.codes ∧ low ≤ code ∧ code ≤ high := by
  simp [Registry.between]

theorem Registry.pairwise_between (low high : StatusCode) :
    (registry.between low high).Pairwise (· < ·) :=
  registry.ascending.filter _

theorem Key.mem_claims {key : Key} :
    code ∈ key.claims registry
      ↔ key = .code code ∨ key = .hundred (code / 100) ∧ code ∈ registry.codes := by
  cases key with
  | code n => simp [Key.claims, eq_comm]
  | hundred digit =>
      have hdigit : (digit * 100 ≤ code ∧ code ≤ digit * 100 + 99) ↔ digit = code / 100 := by
        omega
      simp [Key.claims, Registry.mem_between, hdigit, and_comm]
  | default => simp [Key.claims]

theorem pairwise_codesOf (claimed : List StatusCode) (key : Key) :
    (codesOf registry claimed key).codes.Pairwise (· < ·) := by
  cases key with
  | code n => exact List.pairwise_singleton _ n
  | hundred digit => exact Registry.pairwise_between _ _
  | default => exact (Registry.pairwise_between _ _).filter _

/-! ### The keys of a list -/

/-- Some entry has a text that spells the key. -/
def Declares (entries : List (String × α)) (key : Key) : Prop :=
  ∃ entry ∈ entries, Key.Spells entry.1 key

/-- What the keys claim together. -/
def claimedBy (registry : Registry) (keys : List (Key × α)) : List StatusCode :=
  keys.flatMap fun entry => entry.1.claims registry

theorem mem_claimedBy {keys : List (Key × α)} (hkeys : List.Forall₂ Reads entries keys) :
    code ∈ claimedBy registry keys
      ↔ ∃ key, Declares entries key ∧ code ∈ key.claims registry := by
  induction hkeys with
  | nil => simp [claimedBy, Declares]
  | cons hfirst _ ih =>
      unfold claimedBy Declares at ih ⊢
      simp [ih, hfirst.1.spells_iff, or_and_right, exists_or]

theorem expand_eq_ok_iff :
    expand registry entries = .ok sets
      ↔ ∃ keys, List.Forall₂ Reads entries keys
        ∧ keys.map (fun key => (codesOf registry (claimedBy registry keys) key.1, key.2)) = sets := by
  unfold expand
  cases hkeys : parseKeys entries with
  | error bad => simp [← parseKeys_eq_ok_iff, hkeys]
  | ok keys => simp [← parseKeys_eq_ok_iff, hkeys, claimedBy]

theorem expand_eq_error_iff {bad : String} :
    expand registry entries = .error bad ↔ FirstWithoutKey entries bad := by
  rw [← parseKeys_eq_error_iff, expand]
  cases parseKeys entries <;> simp

/-- Expanding gives a result for all lists whose texts all spell a key. -/
theorem exists_expand_eq_ok (h : ∀ entry ∈ entries, ∃ key, Key.Spells entry.1 key) :
    ∃ sets, expand registry entries = .ok sets := by
  cases hexpand : expand registry entries with
  | ok sets => exact ⟨sets, rfl⟩
  | error bad =>
      obtain ⟨entry, hentry, hnone⟩ :=
        exists_firstWithoutKey_iff.mp ⟨bad, expand_eq_error_iff.mp hexpand⟩
      exact absurd (h entry hentry) hnone

/-! ### Entries and their sets -/

theorem length_of_expand (h : expand registry entries = .ok sets) :
    entries.length = sets.length := by
  obtain ⟨keys, hkeys, rfl⟩ := expand_eq_ok_iff.mp h
  rw [List.length_map, hkeys.length_eq]

theorem values_of_expand (h : expand registry entries = .ok sets) :
    sets.map Prod.snd = entries.map Prod.snd := by
  obtain ⟨keys, hkeys, rfl⟩ := expand_eq_ok_iff.mp h
  rw [List.map_map, eq_comm, ← List.forall₂_eq_eq_eq, List.forall₂_map_left_iff,
    List.forall₂_map_right_iff]
  exact hkeys.imp fun entry key hreads => hreads.2

theorem declares_iff_zip {key : Key} (h : expand registry entries = .ok sets) :
    Declares entries key ↔ ∃ pair ∈ entries.zip sets, Key.Spells pair.1.1 key := by
  have hentries : (entries.zip sets).map Prod.fst = entries :=
    List.map_fst_zip (length_of_expand h).le
  conv_lhs => rw [Declares, ← hentries]
  simp

/-- What the set of an entry depends on: its own key, and what the keys of the list claim. -/
theorem codesOf_of_mem_zip (h : expand registry entries = .ok sets)
    (hpair : pair ∈ entries.zip sets) :
    ∃ key claimed, Key.Spells pair.1.1 key ∧ pair.2.1 = codesOf registry claimed key
      ∧ ∀ code, code ∈ claimed ↔ ∃ key, Declares entries key ∧ code ∈ key.claims registry := by
  obtain ⟨keys, hkeys, rfl⟩ := expand_eq_ok_iff.mp h
  rw [List.zip_map_right, List.mem_map] at hpair
  obtain ⟨⟨entry, key⟩, hmem, rfl⟩ := hpair
  exact ⟨key.1, _, (List.forall₂_zip hkeys hmem).1, rfl, fun code => mem_claimedBy hkeys⟩

/-- The registered code is left over: neither it nor its class is declared. -/
def LeftOver (registry : Registry) (entries : List (String × α)) (code : Nat) : Prop :=
  (code ∈ registry.codes ∧ 100 ≤ code ∧ code ≤ 599)
    ∧ ¬Declares entries (.code code) ∧ ¬Declares entries (.hundred (code / 100))

/-- **The codes of an entry, by the keys that the list declares.** -/
theorem mem_codes_iff (h : expand registry entries = .ok sets) (hpair : pair ∈ entries.zip sets) :
    code ∈ pair.2.1.codes
      ↔ Key.Spells pair.1.1 (.code code)
        ∨ (Key.Spells pair.1.1 (.hundred (code / 100)) ∧ code ∈ registry.codes)
        ∨ (pair.1.1 = "default" ∧ LeftOver registry entries code) := by
  obtain ⟨key, claimed, hspells, hcodes, hclaimed⟩ := codesOf_of_mem_zip h hpair
  rw [hcodes, ← Key.spells_default_iff]
  simp only [hspells.spells_iff]
  cases key with
  | code n => simp [codesOf, Key.mem_claims]
  | hundred digit => simp [codesOf, Key.mem_claims]
  | default =>
      have hfree (hcode : code ∈ registry.codes) : code ∉ claimed
          ↔ ¬Declares entries (.code code) ∧ ¬Declares entries (.hundred (code / 100)) := by
        simp [hclaimed, Key.mem_claims, hcode, and_or_left, exists_or]
      simp only [codesOf, List.mem_filter, Registry.mem_between, LeftOver]
      simp +contextual [and_assoc, hfree]

/-- What is left over is read from the sets as well: it is what the other sets do not hold. -/
theorem leftOver_iff (h : expand registry entries = .ok sets) :
    LeftOver registry entries code
      ↔ (code ∈ registry.codes ∧ 100 ≤ code ∧ code ≤ 599)
        ∧ ∀ other ∈ entries.zip sets, other.1.1 ≠ "default" → code ∉ other.2.1.codes := by
  refine and_congr_right fun ⟨hcode, _⟩ => ?_
  rw [declares_iff_zip h, declares_iff_zip h]
  constructor
  · rintro ⟨hnamed, hclass⟩ other hother hdefault hmem
    rcases (mem_codes_iff h hother).mp hmem with hspells | ⟨hspells, -⟩ | ⟨htext, -⟩
    · exact hnamed ⟨other, hother, hspells⟩
    · exact hclass ⟨other, hother, hspells⟩
    · exact hdefault htext
  · intro hother
    have hne {text : String} {key : Key} (hspells : Key.Spells text key) (hkey : key ≠ .default) :
        text ≠ "default" :=
      fun htext => hkey (hspells.spells_iff.mp (Key.spells_default_iff.mpr htext))
    constructor
    · rintro ⟨pair, hpair, hspells⟩
      exact hother pair hpair (hne hspells nofun) ((mem_codes_iff h hpair).mpr (.inl hspells))
    · rintro ⟨pair, hpair, hspells⟩
      exact hother pair hpair (hne hspells nofun)
        ((mem_codes_iff h hpair).mpr (.inr (.inl ⟨hspells, hcode⟩)))

/-! ### The sets of a list -/

/-- What the sets of a list are, key by key. -/
structure Expanded (registry : Registry) (entries : List (String × α))
    (sets : List (CodeSet × α)) : Prop where
  values : sets.map Prod.snd = entries.map Prod.snd
  ascending : ∀ set ∈ sets, set.1.codes.Pairwise (· < ·)
  code : ∀ pair ∈ entries.zip sets, ∀ n, Key.Spells pair.1.1 (.code n) → pair.2.1.codes = [n]
  hundred : ∀ pair ∈ entries.zip sets, ∀ digit, Key.Spells pair.1.1 (.hundred digit) →
    ∀ code, code ∈ pair.2.1.codes
      ↔ code ∈ registry.codes ∧ 100 * digit ≤ code ∧ code ≤ 100 * digit + 99
  /-- `default` stands for what no other key stands for, whether that one is before or after it -/
  default : ∀ pair ∈ entries.zip sets, pair.1.1 = "default" →
    ∀ code, code ∈ pair.2.1.codes
      ↔ (code ∈ registry.codes ∧ 100 ≤ code ∧ code ≤ 599)
        ∧ ∀ other ∈ entries.zip sets, other.1.1 ≠ "default" → code ∉ other.2.1.codes
  covers : (∃ entry ∈ entries, entry.1 = "default") →
    ∀ code ∈ registry.codes, 100 ≤ code → code ≤ 599 → ∃ set ∈ sets, code ∈ set.1.codes

theorem expanded_of_expand (h : expand registry entries = .ok sets) :
    Expanded registry entries sets where
  values := values_of_expand h
  ascending := by
    intro set hset
    obtain ⟨keys, -, rfl⟩ := expand_eq_ok_iff.mp h
    obtain ⟨key, -, rfl⟩ := List.mem_map.mp hset
    exact pairwise_codesOf _ key.1
  code := by
    intro pair hpair n hn
    obtain ⟨key, claimed, hspells, hcodes, -⟩ := codesOf_of_mem_zip h hpair
    rw [hcodes, hspells.spells_iff.mp hn]
    rfl
  hundred := by
    intro pair hpair digit hdigit code
    obtain ⟨key, claimed, hspells, hcodes, -⟩ := codesOf_of_mem_zip h hpair
    rw [hcodes, hspells.spells_iff.mp hdigit, Nat.mul_comm]
    exact Registry.mem_between
  default := by
    intro pair hpair hdefault code
    have hspells := Key.spells_default_iff.mpr hdefault
    rw [mem_codes_iff h hpair, hspells.spells_iff, hspells.spells_iff, ← leftOver_iff h]
    simp [hdefault]
  covers := by
    rintro ⟨entry, hentry, hdefault⟩ code hcode hlow hhigh
    have hspells : Declares entries .default :=
      ⟨entry, hentry, Key.spells_default_iff.mpr hdefault⟩
    obtain ⟨pair, hpair, hpairDefault⟩ := (declares_iff_zip h).mp hspells
    by_cases hleft : LeftOver registry entries code
    · exact ⟨pair.2, (List.of_mem_zip hpair).2, (mem_codes_iff h hpair).mpr
        (.inr (.inr ⟨Key.spells_default_iff.mp hpairDefault, hleft⟩))⟩
    · rw [leftOver_iff h] at hleft
      push Not at hleft
      obtain ⟨other, hother, -, hmem⟩ := hleft ⟨hcode, hlow, hhigh⟩
      exact ⟨other.2, (List.of_mem_zip hother).2, hmem⟩

/-- **Expanding fails at the first text that spells no key, and with no such text gives each key
what it stands for.** -/
theorem expand_exact (registry : Registry) (entries : List (String × α)) :
    (∀ bad, expand registry entries = .error bad ↔ FirstWithoutKey entries bad)
      ∧ ((∃ bad, expand registry entries = .error bad)
        ↔ ∃ entry ∈ entries, ¬∃ key, Key.Spells entry.1 key)
      ∧ ∀ sets, expand registry entries = .ok sets → Expanded registry entries sets := by
  refine ⟨fun bad => expand_eq_error_iff, ?_, fun sets => expanded_of_expand⟩
  rw [← exists_firstWithoutKey_iff]
  exact exists_congr fun bad => expand_eq_error_iff

/-- A code need not be registered, and `default` keeps to the codes of a response. -/
example :
    expand (.ofList [200, 404, 500, 700]) [("404", 1), ("default", 2), ("2XX", 3), ("299", 4)]
      = .ok [(⟨[404]⟩, 1), (⟨[500]⟩, 2), (⟨[200]⟩, 3), (⟨[299]⟩, 4)] := by
  rfl

/-! ### Codes in two sets -/

/-- A registered code that is declared next to its own class. -/
def Overlaps (registry : Registry) (entries : List (String × α)) (code : Nat) : Prop :=
  code ∈ registry.codes ∧ Declares entries (.code code)
    ∧ Declares entries (.hundred (code / 100))

/-- Only such a code is in the sets of two keys. -/
theorem overlaps_of_mem_both {other : (String × α) × (CodeSet × α)}
    (h : expand registry entries = .ok sets) (hpair : pair ∈ entries.zip sets)
    (hother : other ∈ entries.zip sets) (hmem : code ∈ pair.2.1.codes)
    (hmemOther : code ∈ other.2.1.codes) (hne : pair.1.1 ≠ other.1.1) :
    Overlaps registry entries code := by
  have declared {pair : (String × α) × (CodeSet × α)} {key : Key} (hpair : pair ∈ entries.zip sets)
      (hspells : Key.Spells pair.1.1 key) : Declares entries key :=
    (declares_iff_zip h).mpr ⟨pair, hpair, hspells⟩
  rcases (mem_codes_iff h hpair).mp hmem with hcode | ⟨hclass, hreg⟩ | ⟨htext, -, hcode, hclass⟩
  · rcases (mem_codes_iff h hother).mp hmemOther with
      hcode' | ⟨hclass', hreg'⟩ | ⟨-, -, hnot, -⟩
    · exact absurd (hcode.text_eq hcode') hne
    · exact ⟨hreg', declared hpair hcode, declared hother hclass'⟩
    · exact absurd (declared hpair hcode) hnot
  · rcases (mem_codes_iff h hother).mp hmemOther with
      hcode' | ⟨hclass', -⟩ | ⟨-, -, -, hnot⟩
    · exact ⟨hreg, declared hother hcode', declared hpair hclass⟩
    · exact absurd (hclass.text_eq hclass') hne
    · exact absurd (declared hpair hclass) hnot
  · rcases (mem_codes_iff h hother).mp hmemOther with hcode' | ⟨hclass', -⟩ | ⟨htext', -⟩
    · exact absurd (declared hother hcode') hcode
    · exact absurd (declared hother hclass') hclass
    · exact absurd (htext.trans htext'.symm) hne

/-- The code is in the set of this entry, and in the set of no other key. -/
def OnlyIn (entries : List (String × α)) (sets : List (CodeSet × α))
    (pair : (String × α) × (CodeSet × α)) (code : Nat) : Prop :=
  code ∈ pair.2.1.codes
    ∧ ∀ other ∈ entries.zip sets, code ∈ other.2.1.codes → other.1.1 = pair.1.1

theorem onlyIn_of_not_overlaps (h : expand registry entries = .ok sets)
    (hpair : pair ∈ entries.zip sets) (hmem : code ∈ pair.2.1.codes)
    (hoverlaps : ¬Overlaps registry entries code) : OnlyIn entries sets pair code := by
  refine ⟨hmem, fun other hother hmemOther => ?_⟩
  by_contra hne
  exact hoverlaps (overlaps_of_mem_both h hother hpair hmemOther hmem hne)

/-- How far the sets of different keys are apart. -/
structure Parted (registry : Registry) (entries : List (String × α))
    (sets : List (CodeSet × α)) : Prop where
  disjoint : sets.Pairwise (fun first second => first.1.codes.Disjoint second.1.codes)
    ↔ ∀ code, ¬Overlaps registry entries code
  overlap : ∀ code, Overlaps registry entries code → ∀ pair ∈ entries.zip sets,
    (code ∈ pair.2.1.codes
      ↔ Key.Spells pair.1.1 (.code code) ∨ Key.Spells pair.1.1 (.hundred (code / 100)))
  code : ∀ pair ∈ entries.zip sets, ∀ code, Key.Spells pair.1.1 (.code code) →
    ¬Overlaps registry entries code → OnlyIn entries sets pair code
  hundred : ∀ pair ∈ entries.zip sets, ∀ code ∈ registry.codes,
    Key.Spells pair.1.1 (.hundred (code / 100)) → ¬Declares entries (.code code) →
      OnlyIn entries sets pair code
  default : ∀ code, LeftOver registry entries code → ∀ pair ∈ entries.zip sets,
    (code ∈ pair.2.1.codes ↔ pair.1.1 = "default")

/-- With distinct texts, the sets are apart just if those of different texts are. -/
theorem pairwise_disjoint_iff (h : expand registry entries = .ok sets)
    (hdistinct : (entries.map Prod.fst).Nodup) :
    sets.Pairwise (fun first second => first.1.codes.Disjoint second.1.codes)
      ↔ ∀ pair ∈ entries.zip sets, ∀ other ∈ entries.zip sets, pair.1.1 ≠ other.1.1 →
        pair.2.1.codes.Disjoint other.2.1.codes := by
  have hentries : (entries.zip sets).map Prod.fst = entries :=
    List.map_fst_zip (length_of_expand h).le
  have hsets : (entries.zip sets).map Prod.snd = sets :=
    List.map_snd_zip (length_of_expand h).ge
  have htexts : ((entries.zip sets).map fun pair => pair.1.1).Nodup := by
    rw [← hentries, List.map_map] at hdistinct
    exact hdistinct
  have hsymm : Std.Symm fun pair other : (String × α) × (CodeSet × α) =>
      pair.2.1.codes.Disjoint other.2.1.codes := ⟨fun _ _ => List.Disjoint.symm⟩
  conv_lhs => rw [← hsets, List.pairwise_map, ← (htexts.of_map _).pairwise_coe]
  refine forall₂_congr fun pair hpair => forall₂_congr fun other hother => ?_
  have htext : pair.1.1 = other.1.1 ↔ pair = other :=
    ⟨fun h => List.inj_on_of_nodup_map htexts hpair hother h, fun h => h ▸ rfl⟩
  rw [ne_eq, ne_eq, htext]

theorem parted_of_expand (h : expand registry entries = .ok sets)
    (hdistinct : (entries.map Prod.fst).Nodup) : Parted registry entries sets where
  disjoint := by
    rw [pairwise_disjoint_iff h hdistinct]
    constructor
    · rintro hdisjoint code ⟨hreg, hcode, hclass⟩
      obtain ⟨named, hnamed, hcode⟩ := (declares_iff_zip h).mp hcode
      obtain ⟨ofClass, hofClass, hclass⟩ := (declares_iff_zip h).mp hclass
      have hne : named.1.1 ≠ ofClass.1.1 := by
        intro heq
        rw [heq] at hcode
        exact absurd (hcode.spells_iff.mp hclass) nofun
      exact hdisjoint named hnamed ofClass hofClass hne
        ((mem_codes_iff h hnamed).mpr (.inl hcode))
        ((mem_codes_iff h hofClass).mpr (.inr (.inl ⟨hclass, hreg⟩)))
    · intro hnone pair hpair other hother hne code hmem hmemOther
      exact hnone code (overlaps_of_mem_both h hpair hother hmem hmemOther hne)
  overlap := by
    intro code hoverlaps pair hpair
    have hleft : ¬LeftOver registry entries code := fun hleft => hleft.2.1 hoverlaps.2.1
    rw [mem_codes_iff h hpair]
    simp [hoverlaps.1, hleft]
  code := fun pair hpair code hcode =>
    onlyIn_of_not_overlaps h hpair ((mem_codes_iff h hpair).mpr (.inl hcode))
  hundred := fun pair hpair code hreg hclass hcode =>
    onlyIn_of_not_overlaps h hpair ((mem_codes_iff h hpair).mpr (.inr (.inl ⟨hclass, hreg⟩)))
      fun hoverlaps => hcode hoverlaps.2.1
  default := by
    intro code hleft pair hpair
    have hcode : ¬Key.Spells pair.1.1 (.code code) :=
      fun hspells => hleft.2.1 ((declares_iff_zip h).mpr ⟨pair, hpair, hspells⟩)
    have hclass : ¬Key.Spells pair.1.1 (.hundred (code / 100)) :=
      fun hspells => hleft.2.2 ((declares_iff_zip h).mpr ⟨pair, hpair, hspells⟩)
    rw [mem_codes_iff h hpair]
    simp [hcode, hclass, hleft]

/-- **Keys that are valid and distinct have sets that meet only in a registered code that is
declared next to its own class.** -/
theorem expand_parts (hvalid : ∀ entry ∈ entries, ∃ key, Key.Spells entry.1 key)
    (hdistinct : (entries.map Prod.fst).Nodup) :
    ∃ sets, expand registry entries = .ok sets ∧ Parted registry entries sets := by
  obtain ⟨sets, h⟩ := exists_expand_eq_ok hvalid
  exact ⟨sets, h, parted_of_expand h hdistinct⟩

/-- Keys of all kinds, one of them next to its class and one apart from it. -/
theorem expand_parts_all_kinds :
    let entries := [("default", "problem"), ("404", "absent"), ("4XX", "refused"), ("200", "pet")]
    ((∀ entry ∈ entries, ∃ key, Key.Spells entry.1 key) ∧ (entries.map Prod.fst).Nodup)
      ∧ ∃ sets, expand .standard entries = .ok sets ∧ Parted .standard entries sets := by
  intro entries
  have hvalid : ∀ entry ∈ entries, ∃ key, Key.Spells entry.1 key := by
    refine List.forall_mem_cons.mpr ⟨⟨.default, ?default⟩, List.forall_mem_cons.mpr
      ⟨⟨.code 404, ?absent⟩, List.forall_mem_cons.mpr ⟨⟨.hundred 4, ?refused⟩,
        List.forall_mem_singleton.mpr ⟨.code 200, ?pet⟩⟩⟩⟩
    all_goals exact Key.ofText?_eq_some_iff.mp (by decide +kernel)
  exact ⟨⟨hvalid, by decide⟩, expand_parts hvalid (by decide)⟩

/-- Sets of distinct keys are not disjoint in general: `4XX` does not leave out a `404` beside
it. -/
theorem expand_overlaps :
    ¬∀ (registry : Registry) (entries : List (String × Unit)) (sets : List (CodeSet × Unit)),
      (entries.map Prod.fst).Nodup → expand registry entries = .ok sets →
        sets.Pairwise fun first second => first.1.codes.Disjoint second.1.codes := by
  intro hdisjoint
  have h := hdisjoint (.ofList [400, 404]) [("404", ()), ("4XX", ())]
    [(⟨[404]⟩, ()), (⟨[400, 404]⟩, ())] (by decide) rfl
  have hfirst : [404].Disjoint [400, 404] := (List.pairwise_cons.mp h).1 _ (List.mem_singleton_self _)
  exact hfirst (List.mem_singleton_self 404) (by decide)

end ApiTypings.StatusCode
