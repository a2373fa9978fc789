import Mathlib.Data.List.TakeWhile
import CalendarRollup.Proofs.Json.Grammar

/-! Each reader of blanks, strings and keys accepts just what the grammar spells. -/
namespace CalendarRollup.Json
open Grammar

namespace Parser

theorem isSpace_iff {c : Char} : isSpace c = true ↔ c ∈ [' ', '\t', '\n', '\r'] := by
  simp [isSpace, or_assoc]

theorem skipSpace_of_head {cs : Chars} (solid : ∀ c ∈ cs.head?, isSpace c = false) :
    skipSpace cs = cs := by
  cases cs with
  | nil => rfl
  | cons c cs => simp [skipSpace, solid c rfl]

theorem skipSpace_gap {gap cs : Chars} (isGap : IsGap gap) :
    skipSpace (gap ++ cs) = skipSpace cs := by
  unfold skipSpace
  exact List.dropWhile_append_of_pos fun c hc => isSpace_iff.mpr (isGap c hc)

theorem exists_gap (cs : Chars) : ∃ gap, IsGap gap ∧ cs = gap ++ skipSpace cs :=
  ⟨cs.takeWhile isSpace, fun _ hc => isSpace_iff.mp (List.mem_takeWhile_imp hc),
    List.takeWhile_append_dropWhile.symm⟩

section Hex
variable {c : Char} {cs rest : Chars} {value : Nat}

theorem isHex_lt (hex : IsHex c value) : value < 16 := by
  rcases hex with h | h
  all_goals exact (List.getElem?_eq_some_iff.mp h).1

theorem toNat_lt_of_hexValue? (h : hexValue? c = some value) : c.toNat < 128 := by
  unfold hexValue? at h
  split at h
  next hdigit => exact Nat.lt_of_le_of_lt hdigit.2 (by decide)
  next =>
    split at h
    next hsmall => exact Nat.lt_of_le_of_lt hsmall.2 (by decide)
    next =>
      split at h
      next hcapital => exact Nat.lt_of_le_of_lt hcapital.2 (by decide)
      next => cases h

theorem hexValue?_eq_some_iff : hexValue? c = some value ↔ IsHex c value := by
  constructor
  · have table : ∀ n < 128,
        (hexValue? (Char.ofNat n)).all (fun k => decide (IsHex (Char.ofNat n) k)) = true := by
      decide
    intro h
    simpa [h] using table c.toNat (toNat_lt_of_hexValue? h)
  · have small : ∀ k < 16, ("0123456789abcdef".toList[k]?).map hexValue? = some (some k) := by
      decide
    have capital : ∀ k < 16, ("0123456789ABCDEF".toList[k]?).map hexValue? = some (some k) := by
      decide
    intro hex
    have hlt := isHex_lt hex
    rcases hex with h | h
    · have hk := small value hlt
      rw [h] at hk
      exact Option.some.inj hk
    · have hk := capital value hlt
      rw [h] at hk
      exact Option.some.inj hk

theorem hex4_eq_some_iff :
    hex4 cs = some (value, rest) ↔ ∃ ds, SpellsUnit value ds ∧ cs = ds ++ rest := by
  constructor
  · intro h
    unfold hex4 at h
    split at h
    next a b c d tail =>
      obtain ⟨p, hp, h⟩ := Option.bind_eq_some_iff.mp h
      obtain ⟨q, hq, h⟩ := Option.bind_eq_some_iff.mp h
      obtain ⟨r, hr, h⟩ := Option.bind_eq_some_iff.mp h
      obtain ⟨s, hs, h⟩ := Option.bind_eq_some_iff.mp h
      cases h
      exact ⟨[a, b, c, d], .digits (hexValue?_eq_some_iff.mp hp) (hexValue?_eq_some_iff.mp hq)
        (hexValue?_eq_some_iff.mp hr) (hexValue?_eq_some_iff.mp hs), rfl⟩
    next => cases h
  · rintro ⟨_, ⟨first, second, third, fourth⟩, rfl⟩
    simp [hex4, hexValue?_eq_some_iff.mpr first, hexValue?_eq_some_iff.mpr second,
      hexValue?_eq_some_iff.mpr third, hexValue?_eq_some_iff.mpr fourth]

theorem lt_of_spellsUnit {ds : Chars} (digits : SpellsUnit value ds) : value < 0x10000 := by
  obtain ⟨first, second, third, fourth⟩ := digits
  have hp := isHex_lt first
  have hq := isHex_lt second
  have hr := isHex_lt third
  have hs := isHex_lt fourth
  omega

end Hex

section Strings
variable {c : Char} {cs rest : Chars}

theorem toNat_ofNat {n : Nat} (valid : n.isValidChar) : (Char.ofNat n).toNat = n := by
  have hchar : Char.ofNat n = Char.ofNatAux n valid := dif_pos valid
  rw [hchar]
  rfl

theorem escaped_eq_some_iff :
    escaped cs = some (c, rest) ↔ ∃ ds, SpellsChar c ('\\' :: ds) ∧ cs = ds ++ rest := by
  constructor
  · intro h
    unfold escaped at h
    split at h
    case h_9 tail =>
      obtain ⟨⟨unit, left⟩, hunit, hchar⟩ := Option.bind_eq_some_iff.mp h
      obtain ⟨ds, digits, rfl⟩ := hex4_eq_some_iff.mp hunit
      have hlt := lt_of_spellsUnit digits
      simp only at hchar
      split at hchar
      next hlone =>
        cases hchar
        have hvalue : (Char.ofNat unit).toNat = unit :=
          toNat_ofNat (hlone.imp_right fun h => ⟨h, by omega⟩)
        exact ⟨'u' :: ds, .unit (hvalue.symm ▸ digits), rfl⟩
      next hlone =>
        split at hchar
        next => cases hchar
        next hlead =>
          split at hchar
          next =>
            obtain ⟨⟨trail, last⟩, htrail, hpair⟩ := Option.bind_eq_some_iff.mp hchar
            obtain ⟨es, trailDigits, rfl⟩ := hex4_eq_some_iff.mp htrail
            simp only at hpair
            split at hpair
            next htail =>
              rw [Option.some.injEq, Prod.mk.injEq] at hpair
              obtain ⟨rfl, rfl⟩ := hpair
              refine ⟨'u' :: (ds ++ '\\' :: 'u' :: es), .pair digits trailDigits (by omega) (by omega)
                (toNat_ofNat (.inr (by omega))), by simp⟩
            next => cases hpair
          next => cases hchar
    case h_10 => cases h
    all_goals
      cases h
      exact ⟨[_], .short (by simp [shortEscapes]), rfl⟩
  · rintro ⟨ds, spelled, rfl⟩
    cases spelled with
    | plain printable notQuote notBackslash => exact absurd rfl notBackslash
    | short known =>
      simp only [shortEscapes, List.mem_cons, Prod.mk.injEq, List.not_mem_nil, or_false] at known
      rcases known with ⟨rfl, rfl⟩ | ⟨rfl, rfl⟩ | ⟨rfl, rfl⟩ | ⟨rfl, rfl⟩ | ⟨rfl, rfl⟩ | ⟨rfl, rfl⟩ |
        ⟨rfl, rfl⟩ | ⟨rfl, rfl⟩ <;> rfl
    | unit digits =>
      have hread : hex4 (_ ++ rest) = some (c.toNat, rest) := hex4_eq_some_iff.mpr ⟨_, digits, rfl⟩
      have hlone : c.toNat < 0xD800 ∨ 0xDFFF < c.toNat := c.valid.imp_right And.left
      simp [escaped, hread, hlone, Char.ofNat_toNat]
    | pair leadDigits trailDigits isLead isTrail decoded =>
      rename_i lead trail ds es
      have hlead : hex4 (ds ++ '\\' :: 'u' :: (es ++ rest)) =
          some (lead, '\\' :: 'u' :: (es ++ rest)) :=
        hex4_eq_some_iff.mpr ⟨ds, leadDigits, rfl⟩
      have htrail : hex4 (es ++ rest) = some (trail, rest) :=
        hex4_eq_some_iff.mpr ⟨es, trailDigits, rfl⟩
      have hpaired : ¬ (lead < 0xD800 ∨ 0xDFFF < lead) := by omega
      have hfirst : ¬ 0xDC00 ≤ lead := by omega
      have hsecond : 0xDC00 ≤ trail ∧ trail ≤ 0xDFFF := by omega
      simp [escaped, hlead, htrail, hpaired, hfirst, hsecond, ← decoded, Char.ofNat_toNat]

theorem stringChars_eq_some_iff {fuel : Nat} {s : Chars} (enough : cs.length ≤ fuel) :
    stringChars fuel cs = some (s, rest) ↔
      ∃ inside, SpellsChars s inside ∧ cs = inside ++ '"' :: rest := by
  constructor
  · intro h
    induction fuel generalizing cs s with
    | zero => cases h
    | succ fuel ih =>
      unfold stringChars at h
      split at h
      next => cases h
      next =>
        cases h
        exact ⟨[], .nil, rfl⟩
      next tail =>
        obtain ⟨⟨c, left⟩, hchar, h⟩ := Option.bind_eq_some_iff.mp h
        obtain ⟨⟨s, last⟩, hothers, h⟩ := Option.bind_eq_some_iff.mp h
        cases h
        obtain ⟨ds, char, rfl⟩ := escaped_eq_some_iff.mp hchar
        have hleft : left.length ≤ fuel := by
          simp only [List.length_cons, List.length_append] at enough
          omega
        obtain ⟨inside, others, rfl⟩ := ih hleft hothers
        exact ⟨'\\' :: ds ++ inside, .cons char others, by simp⟩
      next c tail notQuote notBackslash =>
        split at h
        next => cases h
        next hprintable =>
          obtain ⟨⟨s, last⟩, hothers, h⟩ := Option.bind_eq_some_iff.mp h
          cases h
          obtain ⟨inside, others, rfl⟩ := ih (Nat.le_of_succ_le_succ enough) hothers
          have char : SpellsChar c [c] :=
            .plain (Nat.le_of_not_lt hprintable) (fun h => notQuote h) (fun h => notBackslash h)
          exact ⟨[c] ++ inside, .cons char others, rfl⟩
  · rintro ⟨inside, spelled, rfl⟩
    induction spelled generalizing fuel with
    | nil =>
      obtain ⟨fuel, rfl⟩ : ∃ k, fuel = k + 1 := ⟨fuel - 1, by simp at enough; omega⟩
      rfl
    | @cons c s cs others char spelled ih =>
      obtain ⟨fuel, rfl⟩ : ∃ k, fuel = k + 1 := ⟨fuel - 1, by simp at enough; omega⟩
      have step (ds : Chars) (escape : SpellsChar c ('\\' :: ds))
          (enough : (ds ++ others ++ '"' :: rest).length ≤ fuel) :
          stringChars (fuel + 1) ('\\' :: ds ++ others ++ '"' :: rest) = some (c :: s, rest) := by
        have hchar : escaped (ds ++ (others ++ '"' :: rest)) = some (c, others ++ '"' :: rest) :=
          escaped_eq_some_iff.mpr ⟨ds, escape, rfl⟩
        have hothers : stringChars fuel (others ++ '"' :: rest) = some (s, rest) :=
          ih (by simp at enough ⊢; omega)
        simp [stringChars, hchar, hothers]
      cases char with
      | plain printable notQuote notBackslash =>
        have hothers : stringChars fuel (others ++ '"' :: rest) = some (s, rest) :=
          ih (by simpa using enough)
        simp [stringChars, hothers, Nat.not_lt.mpr printable]
      | short known => exact step _ (.short known) (by simpa using enough)
      | unit digits => exact step _ (.unit digits) (by simpa using enough)
      | pair leadDigits trailDigits isLead isTrail decoded =>
        exact step _ (.pair leadDigits trailDigits isLead isTrail decoded) (by simpa using enough)

theorem string_eq_some_iff {s : String} :
    string cs = some (s, rest) ↔ ∃ inside, SpellsChars s.toList inside ∧ cs = inside ++ '"' :: rest := by
  unfold string
  refine Option.bind_eq_some_iff.trans ⟨?_, ?_⟩
  · rintro ⟨⟨chars, left⟩, hread, h⟩
    cases h
    rw [String.toList_ofList]
    exact (stringChars_eq_some_iff (Nat.le_refl _)).mp hread
  · rintro spelled
    exact ⟨_, (stringChars_eq_some_iff (Nat.le_refl _)).mpr spelled, by simp⟩

theorem key_eq_some_iff {k : String} :
    key cs = some (k, rest) ↔ ∃ name, SpellsKey k name ∧ cs = name ++ rest := by
  constructor
  · intro h
    obtain ⟨before, gapBefore, hbefore⟩ := exists_gap cs
    unfold key at h
    split at h
    next tail hhead =>
      obtain ⟨⟨s, left⟩, hstring, hkey⟩ := Option.bind_eq_some_iff.mp h
      obtain ⟨inside, spelled, rfl⟩ := string_eq_some_iff.mp hstring
      obtain ⟨after, gapAfter, hafter⟩ := exists_gap left
      simp only at hkey
      split at hkey
      next last hcolon =>
        cases hkey
        refine ⟨_, .colon gapBefore (.quoted spelled) gapAfter, ?_⟩
        rw [hbefore, hhead, hafter, hcolon]
        simp
      next => cases hkey
    next => cases h
  · rintro ⟨_, ⟨gapBefore, ⟨inside⟩, gapAfter⟩, rfl⟩
    rename_i before after cs
    have hstring : string (cs ++ '"' :: (after ++ ':' :: rest)) = some (k, after ++ ':' :: rest) :=
      string_eq_some_iff.mpr ⟨cs, inside, rfl⟩
    have hbefore : skipSpace (before ++ '"' :: (cs ++ '"' :: (after ++ ':' :: rest))) =
        '"' :: (cs ++ '"' :: (after ++ ':' :: rest)) := by
      rw [skipSpace_gap gapBefore]
      rfl
    have hafter : skipSpace (after ++ ':' :: rest) = ':' :: rest := by
      rw [skipSpace_gap gapAfter]
      rfl
    simp [key, hbefore, hstring, hafter]

end Strings
end Parser
end CalendarRollup.Json
