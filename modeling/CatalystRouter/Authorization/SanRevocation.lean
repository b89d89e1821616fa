import Mathlib.Data.List.TakeWhile
import Mathlib.Tactic.Tauto
import CatalystRouter.Authorization.TokenStore

namespace CatalystRouter

/-- The JSON text of a list of SANs. -/
def sansText (sans : List String) : List Char := JsonStrings.stringify (sans.map String.toList)

/-- A stretch of the JSON text of the list reads as the SAN, with `%` and `_` taken for
    wildcards and letters compared without their case; after a NUL nothing is compared
    and the stretch has to be the end of the text. -/
def OccursIn (san : String) (sans : List String) : Prop :=
  ∃ stretch, (if '\x00' ∈ san.toList then stretch <:+ sansText sans else stretch <:+: sansText sans) ∧
    Glob.reads sameLetter ((cString san).map likeToken) stretch = true

/-- JSON writes the SAN as it is. -/
def Unescaped (san : String) : Prop := JsonStrings.escape san.toList = san.toList

/-- None of the characters that the JSON text or `LIKE` gives a meaning of its own. -/
def PlainSan (san : String) : Prop := ∀ c ∈ ['%', '_', '\x22', '[', ']', ',', '\x00'], c ∉ san.toList

instance (san : String) : Decidable (PlainSan san) := List.decidableBAll _ _

/-- A SAN, as JSON spells it, contains the other one but for the case of its letters. -/
def Spells (other san : String) : Prop :=
  ∃ stretch, stretch <:+: JsonStrings.escape other.toList ∧
    List.Forall₂ (fun a b => sameLetter a b = true) san.toList stretch

/-- What the list must have for the SAN to be found in it: a plain SAN within one of the list,
    any other one somewhere in the text. -/
def Suggests (sans : List String) (san : String) : Prop :=
  if PlainSan san then ∃ other ∈ sans, Spells other san else OccursIn san sans

/-- The list tells the SAN from what it does not contain. -/
structure TellsApart (san : String) (sans : List String) : Prop where
  found : san ∈ sans → Unescaped san ∨ Suggests sans san
  apart : san ∉ sans → ¬ Suggests sans san

variable {san : String} {sans : List String}

theorem cString_of_notMem {text : String} (h : '\x00' ∉ text.toList) : cString text = text.toList := by
  refine List.takeWhile_eq_self_iff.mpr fun c hc => ?_
  have hother : c ≠ '\x00' := fun hnul => h (hnul ▸ hc)
  simpa using hother

theorem nul_notMem_sansText : '\x00' ∉ sansText sans := fun hmem =>
  absurd (JsonStrings.printable_of_mem_stringify hmem) (by decide)

theorem like_iff_occursIn : like (stringifySans sans) (sanPattern san) = true ↔ OccursIn san sans := by
  have htext : cString (stringifySans sans) = sansText sans := by
    rw [cString_of_notMem]
    · exact String.toList_ofList
    · rw [stringifySans, String.toList_ofList]
      exact nul_notMem_sansText
  have hpattern : cString (sanPattern san) =
      if '\x00' ∈ san.toList then '%' :: cString san else '%' :: cString san ++ ['%'] := by
    have hchars : (sanPattern san).toList = '%' :: (san.toList ++ ['%']) := by simp [sanPattern]
    rw [cString, hchars, List.takeWhile_cons_of_pos (by decide)]
    split
    · rename_i hnul
      have hshorter : (san.toList.takeWhile (· ≠ '\x00')).length ≠ san.toList.length := fun hlength => by
        have hall := List.takeWhile_eq_self_iff.mp ((List.takeWhile_prefix _).eq_of_length hlength)
        simpa using hall '\x00' hnul
      rw [List.takeWhile_append, if_neg hshorter]
      rfl
    · rename_i hnul
      have hwhole : san.toList.takeWhile (· ≠ '\x00') = san.toList := cString_of_notMem hnul
      rw [List.takeWhile_append, if_pos (by rw [hwhole]), cString_of_notMem hnul]
      rfl
  unfold like OccursIn
  rw [htext, hpattern]
  split
  · rw [List.map_cons]
    exact Glob.reads_many
  · rw [List.cons_append, List.map_cons, List.map_append, ← List.cons_append]
    exact Glob.reads_contains

theorem nul_notMem_of_unescaped (h : Unescaped san) : '\x00' ∉ san.toList := fun hmem =>
  have hescaped : '\x00' ∈ JsonStrings.escape san.toList := by rwa [show JsonStrings.escape san.toList = san.toList from h]
  absurd (JsonStrings.printable_of_mem_escape hescaped) (by decide)

/-- An element that JSON writes as it is occurs. -/
theorem occursIn_of_mem (hunescaped : Unescaped san) (hmem : san ∈ sans) : OccursIn san sans := by
  have hnul := nul_notMem_of_unescaped hunescaped
  refine ⟨san.toList, ?_, ?_⟩
  · rw [if_neg hnul]
    have hinfix := JsonStrings.infix_escape (List.mem_map_of_mem (f := String.toList) hmem)
    rwa [show JsonStrings.escape san.toList = san.toList from hunescaped] at hinfix
  · rw [cString_of_notMem hnul]
    refine Glob.reads_self (fun c => by simp [sameLetter]) (fun c => ?_) san.toList
    unfold likeToken
    split
    · exact .inl rfl
    · split
      · exact .inr (.inl rfl)
      · exact .inr (.inr rfl)

/-- Below the small letters a character is read as itself, and is that of no other letter. -/
theorem eq_of_toLower {a p : Char} (hp : p.toNat < 97) (h : a.toLower = p) : a = p := by
  unfold Char.toLower at h
  split at h
  · rename_i hupper
    have hlow : (65 : Nat) ≤ a.val.toNat := UInt32.le_iff_toNat_le.mp hupper.1
    have hhigh : a.val.toNat ≤ 90 := UInt32.le_iff_toNat_le.mp hupper.2
    have hgap : ('a'.val - 'A'.val).toNat = 32 := by decide
    subst h
    have hsum : (a.val + ('a'.val - 'A'.val)).toNat = a.val.toNat + 32 := by
      rw [UInt32.toNat_add, hgap]
      exact Nat.mod_eq_of_lt (by omega)
    change (a.val + ('a'.val - 'A'.val)).toNat < 97 at hp
    omega
  · exact h

theorem exists_sameLetter {letters stretch : List Char}
    (h : List.Forall₂ (fun a b => sameLetter a b = true) letters stretch) {b : Char} (hmem : b ∈ stretch) :
    ∃ a ∈ letters, sameLetter a b = true := by
  induction h with
  | nil => cases hmem
  | cons hsame hrest ih =>
    obtain rfl | hmem := List.mem_cons.mp hmem
    · exact ⟨_, List.mem_cons_self .., hsame⟩
    · obtain ⟨a, ha, hsame⟩ := ih hmem
      exact ⟨a, List.mem_cons_of_mem _ ha, hsame⟩

theorem eq_of_sameLetter {a c : Char} (hfixed : c.toLower = c ∧ readUtf8 c = c ∧ c.toNat < 97)
    (h : sameLetter a c = true) : a = c := by
  obtain ⟨hlower, hread, hsmall⟩ := hfixed
  have hsame : (readUtf8 a).toLower = c := by
    rw [← hlower, ← hread]
    simpa [sameLetter, hread] using h
  have hletter := eq_of_toLower hsmall hsame
  unfold readUtf8 at hletter
  split at hletter
  · rw [← hletter] at hsmall
    exact absurd hsmall (by decide)
  · exact hletter

/-- Only a SAN of the list that contains it, in any case, makes a plain SAN occur. -/
theorem occursIn_plain_iff (hsome : san ≠ "") (hplain : PlainSan san) :
    OccursIn san sans ↔ ∃ other ∈ sans, Spells other san := by
  have hnul := hplain '\x00' (by simp)
  have htokens : (cString san).map likeToken = san.toList.map .letter := by
    rw [cString_of_notMem hnul]
    refine List.map_congr_left fun c hc => ?_
    have hmany : c ≠ '%' := fun hsame => hplain '%' (by simp) (hsame ▸ hc)
    have hone : c ≠ '_' := fun hsame => hplain '_' (by simp) (hsame ▸ hc)
    rw [likeToken, if_neg hmany, if_neg hone]
  have hstretch {stretch : List Char} (hreads : List.Forall₂ (fun a b => sameLetter a b = true) san.toList stretch) :
      stretch ≠ [] ∧ ∀ c ∈ ['\x22', '[', ']', ','], c ∉ stretch := by
    constructor
    · rintro rfl
      exact hsome (String.toList_eq_nil_iff.mp (List.forall₂_nil_right_iff.mp hreads))
    · intro c hc hmem
      have hfixed : c.toLower = c ∧ readUtf8 c = c ∧ c.toNat < 97 := by
        simp only [List.mem_cons, List.not_mem_nil, or_false] at hc
        obtain rfl | rfl | rfl | rfl := hc <;> decide
      obtain ⟨a, ha, hsame⟩ := exists_sameLetter hreads hmem
      have hletter : a = c := eq_of_sameLetter hfixed hsame
      have hpunctuation : c ∈ ['%', '_', '\x22', '[', ']', ',', '\x00'] := by
        simp only [List.mem_cons, List.not_mem_nil, or_false] at hc
        obtain rfl | rfl | rfl | rfl := hc <;> simp
      exact hplain c hpunctuation (hletter ▸ ha)
  unfold OccursIn
  rw [htokens]
  simp only [if_neg hnul, Glob.reads_letters]
  constructor
  · rintro ⟨stretch, hinfix, hreads⟩
    obtain ⟨hstretchSome, hstretchPlain⟩ := hstretch hreads
    obtain ⟨text, hmem, hwithin⟩ := (JsonStrings.infix_stringify_iff hstretchSome hstretchPlain).mp hinfix
    obtain ⟨other, hother, rfl⟩ := List.mem_map.mp hmem
    exact ⟨other, hother, stretch, hwithin, hreads⟩
  · rintro ⟨other, hother, stretch, hwithin, hreads⟩
    exact ⟨stretch, hwithin.trans (JsonStrings.infix_escape (List.mem_map_of_mem hother)), hreads⟩

theorem suggests_iff (hsome : san ≠ "") : Suggests sans san ↔ OccursIn san sans := by
  unfold Suggests
  split
  · rename_i hplain
    exact (occursIn_plain_iff hsome hplain).symm
  · exact Iff.rfl

theorem tellsApart_iff (hsome : san ≠ "") : TellsApart san sans ↔ (OccursIn san sans ↔ san ∈ sans) := by
  have hsuggests : Suggests sans san ↔ OccursIn san sans := suggests_iff hsome
  constructor
  · rintro ⟨hfound, hapart⟩
    refine ⟨fun hoccurs => by_contra fun hnot => hapart hnot (hsuggests.mpr hoccurs), fun hmem => ?_⟩
    exact (hfound hmem).elim (fun hunescaped => occursIn_of_mem hunescaped hmem) hsuggests.mp
  · exact fun h => ⟨fun hmem => .inr (hsuggests.mpr (h.mpr hmem)), fun hnot hoccurs => hnot (h.mp (hsuggests.mp hoccurs))⟩

namespace SqliteTokenStore

/-- The tokens that a SAN selects are those that have it: they are revoked by it, and no
    others, and they are what is listed for it. -/
structure Exact (san : String) (records : List TokenRecord) : Prop where
  revokeBySan : revokeBySan (records.map TokenRecord.toRow) san =
    .ok ((records.map fun record => if san ∈ record.sans then { record with revoked := true } else record).map
      TokenRecord.toRow)
  listTokens : listTokens (records.map TokenRecord.toRow) { san := some san } =
    .ok ((records.filter fun record => san ∈ record.sans).map TokenRecord.returned)

theorem select_of_ok {condition : TokenRow → Except String Bool} {holds : TokenRow → Bool} {rows : List TokenRow}
    (h : ∀ row, condition row = .ok (holds row)) : select condition rows = .ok (rows.filter holds) := by
  induction rows with
  | nil => rfl
  | cons row rest ih =>
    simp only [select, h, ih, Bind.bind, Except.bind, Pure.pure, Except.pure, List.filter_cons]

/-- What a `SELECT` for a SAN returns, as long as its pattern is accepted. -/
theorem listTokens_san {records : List TokenRecord} (hsome : san ≠ "")
    (hshort : (sanPattern san).utf8ByteSize ≤ maxLikePattern) :
    SqliteTokenStore.listTokens (records.map TokenRecord.toRow) { san := some san } =
      .ok ((records.filter fun record => like (stringifySans record.sans) (sanPattern san)).map TokenRecord.returned) := by
  have hselected (row : TokenRow) : selected { san := some san } row =
      .ok (like row.subjectAlternativeNames (sanPattern san)) := by
    simp [selected, orUndefined, hsome, likeSan, hshort]
  rw [SqliteTokenStore.listTokens, select_of_ok hselected, List.filter_map]
  simp only [Bind.bind, Except.bind, List.mapM_map, Function.comp_def, TokenRecord.toRecord_toRow]
  exact List.mapM_pure

/-- For every content of the store and every SAN, revoking by it and listing for it are
    exact precisely when its pattern is accepted, or there is nothing to compare it with,
    and the list of every token tells it apart. -/
theorem exact_iff (hsome : san ≠ "") (records : List TokenRecord) :
    Exact san records ↔ (records = [] ∨ (sanPattern san).utf8ByteSize ≤ maxLikePattern) ∧
      ∀ record ∈ records, TellsApart san record.sans := by
  by_cases hshort : (sanPattern san).utf8ByteSize ≤ maxLikePattern
  · rw [and_iff_right (.inr hshort)]
    constructor
    · rintro ⟨-, hlisted⟩ record hmem
      rw [listTokens_san hsome hshort, Except.ok.injEq] at hlisted
      -- what is listed shows the SANs, on which alone both selections depend
      have hsans := congrArg (List.map TokenRecord.sans) hlisted
      have hselects (selects : List String → Bool) :
          ((records.filter fun record => selects record.sans).map TokenRecord.returned).map TokenRecord.sans =
            (records.map TokenRecord.sans).filter selects := by
        rw [List.filter_map, List.map_map]
        rfl
      rw [hselects fun sans => like (stringifySans sans) (sanPattern san), hselects fun sans => san ∈ sans] at hsans
      have hrecord := congrArg (record.sans ∈ ·) hsans
      simp only [List.mem_filter, List.mem_map_of_mem hmem, true_and, like_iff_occursIn, decide_eq_true_eq] at hrecord
      exact (tellsApart_iff hsome).mpr (iff_of_eq hrecord)
    · intro hapart
      have hlike : ∀ record ∈ records, like (stringifySans record.sans) (sanPattern san) = decide (san ∈ record.sans) := by
        intro record hmem
        rw [Bool.eq_iff_iff, like_iff_occursIn, decide_eq_true_eq]
        exact (tellsApart_iff hsome).mp (hapart record hmem)
      constructor
      · rw [revokeBySan_of_short hshort, List.map_map, List.map_map]
        refine congrArg Except.ok (List.map_congr_left fun record hmem => ?_)
        have hrow : record.toRow.subjectAlternativeNames = stringifySans record.sans := rfl
        simp only [Function.comp_apply, hrow, hlike record hmem, decide_eq_true_eq]
        split <;> rfl
      · rw [listTokens_san hsome hshort, List.filter_congr hlike]
  · -- the pattern is refused at the first row
    cases records with
    | nil => exact iff_of_true ⟨rfl, rfl⟩ ⟨.inl rfl, by simp⟩
    | cons record rest =>
      refine iff_of_false (fun hexact => ?_) (by simp [hshort])
      have hrefused : SqliteTokenStore.revokeBySan ((record :: rest).map TokenRecord.toRow) san = .error _ :=
        revokeBySan_of_long (Nat.not_le.mp hshort) (by simp)
      exact nomatch hrefused.symm.trans hexact.revokeBySan

def tokenOf (jti san : String) : TokenRecord :=
  { jti, expiry := 0, sans := [san], entityId := "entity-1", entityName := "Entity", entityType := .service,
    revoked := false }

theorem exact_app1 : Exact "app1.internal" [tokenOf "token-1" "app1.internal", tokenOf "token-2" "app2.internal"] := by
  refine (exact_iff (by decide) _).mpr ⟨.inr (by decide), fun record hmem => (tellsApart_iff (by decide)).mpr ?_⟩
  rw [← like_iff_occursIn]
  revert record
  decide

/-- A token with a longer SAN is revoked with the other one, and one with a quote in its
    SAN is not revoked by that SAN. -/
theorem revokeBySan_inexact :
    ((SqliteTokenStore.revokeBySan ([tokenOf "token-1" "app1.internal", tokenOf "token-2" "my-app1.internal"].map
        TokenRecord.toRow) "app1.internal").toOption.getD []).map (·.isRevoked) = [true, true] ∧
      ((SqliteTokenStore.revokeBySan ([tokenOf "token-3" "CN=\"app\""].map TokenRecord.toRow)
        "CN=\"app\"").toOption.getD []).map (·.isRevoked) = [false] := by
  decide

end SqliteTokenStore

end CatalystRouter
