/-! Lines of text. A line ends at a line feed, or at a carriage return with a line feed. -/
namespace CalendarRollup.Text

section

variable {α : Type} [DecidableEq α]

/-- What stands before the first line feed, and what follows it if there is one. -/
def cutLine (feed : α) : List α → List α × Option (List α)
  | [] => ([], none)
  | c :: rest =>
    if c = feed then ([], some rest)
    else
      let (line, rest) := cutLine feed rest
      (c :: line, rest)

theorem length_cutLine {feed : α} {cs line rest : List α}
    (h : cutLine feed cs = (line, some rest)) : rest.length < cs.length := by
  induction cs generalizing line with
  | nil => simp [cutLine] at h
  | cons c cs ih =>
    simp only [cutLine] at h
    split at h
    · simp only [Prod.mk.injEq, Option.some.injEq] at h
      simp [h.2]
    · simp only [Prod.mk.injEq] at h
      have := @ih (cutLine feed cs).1 (Prod.ext rfl h.2)
      simp only [List.length_cons]
      omega

/-- A carriage return before a line feed belongs to the line's end. -/
def withoutReturn (ret : α) (line : List α) : List α :=
  if line.getLast? = some ret then line.dropLast else line

/-- What follows the last line feed is a line as it stands, unless it is empty. -/
def splitLines (feed ret : α) (cs : List α) : List (List α) :=
  match h : cutLine feed cs with
  | (line, none) => if line.isEmpty then [] else [line]
  | (line, some rest) =>
    have := length_cutLine h
    withoutReturn ret line :: splitLines feed ret rest
termination_by cs.length

end

/-- The lines of a text, without their ends. -/
def lines (s : String) : List String := (splitLines '\n' '\r' s.toList).map String.ofList

end CalendarRollup.Text
