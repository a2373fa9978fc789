import CalendarRollup.Calendar.Json
import CalendarRollup.Proofs.Text.Blanks

/-! The texts that name a time unit, and that reading a unit accepts just these. -/
namespace CalendarRollup.TimeUnit
open Text

/-- The two words for a unit. -/
def words (unit : TimeUnit) : List String := [unit.name, unit.abbreviation]

/-- A text names a unit by one of its words, in small or capital letters, with blanks around it. -/
def Names (text : String) (unit : TimeUnit) : Prop :=
  ∃ before word after, IsBlank before ∧ IsBlank after ∧ text.toList = before ++ word ++ after ∧
    ∃ known ∈ unit.words, word.map Char.toLower = known.toList

theorem mem_words {unit : TimeUnit} {word : String} :
    word ∈ unit.words ↔ unit.name = word ∨ unit.abbreviation = word := by
  simp [words, eq_comm]

/-- No word is for two units. -/
theorem eq_of_mem_words {u v : TimeUnit} {word : String} (hu : word ∈ u.words)
    (hv : word ∈ v.words) : u = v := by
  rw [mem_words] at hu hv
  revert hv
  rcases hu with rfl | rfl <;> cases u <;> cases v <;> decide

theorem isBlank_eq_false_of_mem_words {unit : TimeUnit} {word : String} (known : word ∈ unit.words) :
    ∀ c ∈ word.toList, isBlank c = false := by
  have hall : (word.toList.all fun c => !isBlank c) = true := by
    rw [mem_words] at known
    rcases known with rfl | rfl <;> cases unit <;> decide
  simpa using hall

theorem ne_nil_of_mem_words {unit : TimeUnit} {word : String} (known : word ∈ unit.words) :
    word.toList ≠ [] := by
  rw [mem_words] at known
  rcases known with rfl | rfl <;> cases unit <;> decide

theorem find?_all_iff {word : String} {unit : TimeUnit} :
    (all.find? fun other => other.name == word || other.abbreviation == word) = some unit ↔
      word ∈ unit.words := by
  constructor
  · intro h
    simpa [mem_words] using List.find?_some h
  · intro h
    have hsome : (all.find? fun other => other.name == word || other.abbreviation == word).isSome := by
      rw [List.find?_isSome]
      exact ⟨unit, by cases unit <;> decide, by simpa [mem_words] using h⟩
    obtain ⟨found, hfound⟩ := Option.isSome_iff_exists.mp hsome
    have hword : word ∈ found.words := by simpa [mem_words] using List.find?_some hfound
    rw [hfound, eq_of_mem_words hword h]

theorem parse_eq_ok_iff_word {text : String} {unit : TimeUnit} :
    parse text = .ok unit ↔ (trim text).toLower ∈ unit.words := by
  rw [← find?_all_iff]
  simp only [parse]
  cases all.find? fun other =>
    other.name == (trim text).toLower || other.abbreviation == (trim text).toLower <;> simp

theorem parse_eq_ok_iff {text : String} {unit : TimeUnit} :
    parse text = .ok unit ↔ Names text unit := by
  rw [parse_eq_ok_iff_word]
  constructor
  · intro h
    obtain ⟨before, after, hbefore, hafter, hsplit⟩ := exists_surrounded text
    exact ⟨before, _, after, hbefore, hafter, hsplit, _, h, String.toList_map.symm⟩
  · rintro ⟨before, word, after, hbefore, hafter, hsplit, known, hknown, hword⟩
    have hsome : word ≠ [] := by
      rintro rfl
      exact ne_nil_of_mem_words hknown hword.symm
    -- a blank in the word would be one of the known word, which has none
    have hsolid : ∀ c ∈ word, isBlank c = false := by
      intro c hc
      rw [Bool.eq_false_iff]
      intro hblank
      have hmem : c ∈ known.toList := by
        rw [← hword, ← toLower_of_isBlank hblank]
        exact List.mem_map_of_mem hc
      rw [isBlank_eq_false_of_mem_words hknown c hmem] at hblank
      cases hblank
    have hlower : (trim text).toLower = known := by
      have hletters : (trim text).toLower.toList = (trim text).toList.map Char.toLower :=
        String.toList_map
      apply String.toList_inj.mp
      rw [hletters, trim_of_solid hbefore hafter hsome hsolid hsplit, String.toList_ofList, hword]
    rwa [hlower]

theorem names_of_mem_words {unit : TimeUnit} {word : String} (known : word ∈ unit.words) :
    Names word unit := by
  refine ⟨[], word.toList, [], by simp [IsBlank], by simp [IsBlank], by simp, word, known, ?_⟩
  rw [mem_words] at known
  rcases known with rfl | rfl <;> cases unit <;> decide

theorem parse_of_mem_words {unit : TimeUnit} {word : String} (known : word ∈ unit.words) :
    parse word = .ok unit :=
  parse_eq_ok_iff.mpr (names_of_mem_words known)

theorem parse_name (unit : TimeUnit) : parse unit.name = .ok unit :=
  parse_of_mem_words (mem_words.mpr (.inl rfl))

theorem parse_abbreviation (unit : TimeUnit) : parse unit.abbreviation = .ok unit :=
  parse_of_mem_words (mem_words.mpr (.inr rfl))

example : parse "\t MiNuTe\n" = .ok .minute :=
  parse_eq_ok_iff.mpr ⟨['\t', ' '], ['M', 'i', 'N', 'u', 'T', 'e'], ['\n'], by decide, by decide, rfl,
    "minute", by decide, by decide⟩

end CalendarRollup.TimeUnit
