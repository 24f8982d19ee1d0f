import BindOnce.Diagnostic
import Mathlib.Data.List.DropRight

/-!
# The shape of reports

The message for a cause may end in a period, in none, or, since it may quote a name, in several.
Passing through an operator puts the phrase for the operator's line in front of the message and makes
it end in one period.  A message that passes through many operators is wrapped as often, and every
wrapping takes back the period that the one before it set.

What survives the wrappings is the text without the periods it ends in: a phrase is put in front of it
each time, and as no phrase ends in a period, there is never more than one to take back.

## What is here

* `trimPeriods_eq_iff` — what it means to remove the periods at the end of a text.
* `Lang.phrases` — the phrases for several lines, the last one first.
* `Lang.trimPeriods_wrapped` — the phrases for all lines in front of the message.
* `reports_list_lines_outermost_first` — reports, and the texts of all wrapped messages.
-/

set_option autoImplicit false
namespace BindOnce

/-! ## Periods at the end of a text -/

section Periods

variable {s t : String}

/-- The last character of the text is a period. -/
def EndsInPeriod (s : String) : Prop := s.toList.getLast? = some '.'

/-- A text of periods only. -/
def periods (n : Nat) : String := .ofList (List.replicate n '.')

theorem periods_one : periods 1 = "." := rfl

theorem not_endsInPeriod_append (hs : ¬EndsInPeriod s) (ht : ¬EndsInPeriod t) :
    ¬EndsInPeriod (s ++ t) := by
  rw [EndsInPeriod, String.toList_append, List.getLast?_append, Option.or_eq_some_iff]
  rintro (h | ⟨-, h⟩)
  · exact ht h
  · exact hs h

theorem not_endsInPeriod_trimPeriods (s : String) : ¬EndsInPeriod (trimPeriods s) := by
  have hends : (s.dropEndWhile '.').endsWith '.' = false := String.endsWith_dropEndWhile
  rw [String.Slice.endsWith_char_eq_getLast?] at hends
  exact beq_eq_false_iff_ne.1 hends

theorem exists_trimPeriods_append (s : String) : ∃ n, s = trimPeriods s ++ periods n := by
  have hall : (s.takeEndWhile '.').revAll '.' = true := String.revAll_takeEndWhile
  rw [String.Slice.revAll_char_iff] at hall
  refine ⟨(s.takeEndWhile '.').copy.toList.length, ?_⟩
  rw [trimPeriods, periods, ← hall, String.ofList_toList, String.dropEndWhile_append_takeEndWhile]

theorem rdropWhile_append_periods (h : ¬EndsInPeriod s) (n : Nat) :
    (s ++ periods n).toList.rdropWhile (· = '.') = s.toList := by
  rw [String.toList_append, periods, String.toList_ofList, List.rdropWhile, List.reverse_append,
    List.reverse_replicate,
    List.dropWhile_append_of_pos fun c hc => decide_eq_true (List.eq_of_mem_replicate hc),
    ← List.rdropWhile, List.rdropWhile_eq_self_iff]
  intro hne hlast
  exact h ((List.getLast?_eq_some_getLast hne).trans (congrArg some (of_decide_eq_true hlast)))

/-- Periods at the end of a text that ends in none are all that is removed. -/
theorem trimPeriods_append_periods (h : ¬EndsInPeriod s) (n : Nat) :
    trimPeriods (s ++ periods n) = s := by
  obtain ⟨m, hm⟩ := exists_trimPeriods_append (s ++ periods n)
  rw [String.ext_iff, ← rdropWhile_append_periods (not_endsInPeriod_trimPeriods _) m, ← hm,
    rdropWhile_append_periods h]

/-- What is left of a text without the periods it ends in is its only beginning that does not end in
a period and is followed by periods. -/
theorem trimPeriods_eq_iff : trimPeriods s = t ↔ ¬EndsInPeriod t ∧ ∃ n, s = t ++ periods n := by
  constructor
  · rintro rfl
    exact ⟨not_endsInPeriod_trimPeriods s, exists_trimPeriods_append s⟩
  · rintro ⟨ht, n, rfl⟩
    exact trimPeriods_append_periods ht n

end Periods

/-! ## Wrapping a message -/

namespace Lang

variable {lang : Lang} {line : Line} {lines : List Line}

/-- The phrases for the lines, the last line first. -/
def phrases (lang : Lang) (lines : List Line) : String :=
  String.join (lines.reverse.map lang.linePhrase)

theorem phrases_cons : lang.phrases (line :: lines) = lang.phrases lines ++ lang.linePhrase line := by
  simp [phrases, String.join_append]

example : waray.phrases [2, 5] =
    "May sayop ka ha linya 5: May sayop ka ha linya 2: " := by decide +kernel

theorem linePhrase_waray (line : Line) :
    waray.linePhrase line = "May sayop ka ha linya " ++ toString line ++ ": " := rfl

theorem linePhrase_tagalog (line : Line) :
    tagalog.linePhrase line = "May mali ka sa linya " ++ toString line ++ ": " := rfl

/-- Phrases end in a blank. -/
theorem not_endsInPeriod_linePhrase : ¬EndsInPeriod (lang.linePhrase line) := by
  have hblank : ∀ s : String, ¬EndsInPeriod (s ++ ": ") := fun s => by simp [EndsInPeriod]
  cases lang with
  | waray => exact hblank _
  | tagalog => exact hblank _

theorem not_endsInPeriod_phrases : ¬EndsInPeriod (lang.phrases lines) := by
  induction lines with
  | nil => simp [phrases, EndsInPeriod]
  | cons line lines ih =>
    rw [phrases_cons]
    exact not_endsInPeriod_append ih not_endsInPeriod_linePhrase

/-- One wrapping puts one phrase in front of what does not count as the end. -/
theorem trimPeriods_atLine (message : String) :
    trimPeriods (lang.atLine line message) = lang.linePhrase line ++ trimPeriods message := by
  have hperiod : lang.atLine line message =
      lang.linePhrase line ++ trimPeriods message ++ periods 1 := by
    rw [periods_one, atLine]
  rw [hperiod]
  exact trimPeriods_append_periods (not_endsInPeriod_append not_endsInPeriod_linePhrase
    (not_endsInPeriod_trimPeriods message)) 1

theorem atLine_eq_trimPeriods (message : String) :
    lang.atLine line message = trimPeriods (lang.atLine line message) ++ "." := by
  rw [trimPeriods_atLine, atLine]

theorem trimPeriods_wrapped (lines : List Line) (message : String) :
    trimPeriods (lang.wrapped lines message) = lang.phrases lines ++ trimPeriods message := by
  induction lines generalizing message with
  | nil => simp [wrapped, phrases]
  | cons line lines ih =>
    rw [wrapped, List.foldl_cons, ← wrapped, ih, trimPeriods_atLine, phrases_cons,
      String.append_assoc]

/-- The last wrapping sets the period. -/
theorem wrapped_eq_trimPeriods (hlines : lines ≠ []) (message : String) :
    lang.wrapped lines message = trimPeriods (lang.wrapped lines message) ++ "." := by
  obtain ⟨earlier, line, rfl⟩ := List.eq_nil_or_concat' lines |>.resolve_left hlines
  rw [wrapped, List.foldl_concat]
  exact atLine_eq_trimPeriods _

theorem wrapped_eq (hlines : lines ≠ []) (message : String) :
    lang.wrapped lines message = lang.phrases lines ++ trimPeriods message ++ "." := by
  rw [wrapped_eq_trimPeriods hlines, trimPeriods_wrapped]

end Lang

/-! ## Reports -/

theorem Failure.lines_foldl_mark (lines : List Line) (e : Failure) :
    (lines.foldl (fun e line => e.mark line) e).lines = e.lines ++ lines := by
  induction lines generalizing e with
  | nil => simp
  | cons line lines ih => rw [List.foldl_cons, ih, lines_mark, List.append_assoc]; rfl

/-- **Reports list the lines outermost first.**  A message that passes through operators on some lines
becomes the phrases for these lines, each once and the last line first, then the message without the
periods it ends in, then one period; without lines it stays as it is.  A report is the message for the
cause after it has passed through operators on the lines of the failure, which are the lines of all
operators that the failure has passed, in this order. -/
theorem reports_list_lines_outermost_first (lang : Lang) :
    (∀ line : Line,
      Lang.waray.linePhrase line = "May sayop ka ha linya " ++ toString line ++ ": " ∧
      Lang.tagalog.linePhrase line = "May mali ka sa linya " ++ toString line ++ ": ") ∧
    (∀ message : String, ¬EndsInPeriod (trimPeriods message) ∧
      ∃ n, message = trimPeriods message ++ periods n) ∧
    (∀ (lines : List Line) (message : String),
      lang.wrapped lines message =
        (if lines = [] then message else lang.phrases lines ++ trimPeriods message ++ ".") ∧
      ¬EndsInPeriod (lang.phrases lines ++ trimPeriods message)) ∧
    (∀ (cause : Cause) (lines : List Line),
      (lines.foldl (fun e line => e.mark line) { cause := cause : Failure }).lines = lines) ∧
    (∀ e : Failure,
      e.report lang = lang.wrapped e.lines (lang.causeText e.cause) ∧
      e.report lang =
        if e.lines = [] then lang.causeText e.cause
        else lang.phrases e.lines ++ trimPeriods (lang.causeText e.cause) ++ ".") := by
  have hwrapped (lines : List Line) (message : String) : lang.wrapped lines message =
      if lines = [] then message else lang.phrases lines ++ trimPeriods message ++ "." := by
    split
    · next h => rw [h]; rfl
    · next h => exact Lang.wrapped_eq h message
  refine ⟨fun line => ⟨Lang.linePhrase_waray line, Lang.linePhrase_tagalog line⟩,
    fun message => trimPeriods_eq_iff.1 rfl, fun lines message => ⟨hwrapped lines message, ?_⟩,
    fun cause lines => Failure.lines_foldl_mark lines _, fun e => ⟨rfl, ?_⟩⟩
  · exact not_endsInPeriod_append Lang.not_endsInPeriod_phrases (not_endsInPeriod_trimPeriods message)
  · rw [Failure.report, hwrapped]

end BindOnce
