import BindOnce.Config
import Mathlib.Data.List.DropRight
import Mathlib.Data.List.Forall2

/-!
# What settings are accepted

The language of diagnostics and the mode are set by a word.  It may be padded with white space, and
its letters may be capitals; all other texts are rejected, and the failure carries them as they were
given.  White space is what Unicode calls so, but only ASCII letters have capitals here: a letter that
becomes an ASCII letter when it is made small is not one.

## What is here

* `whiteSpace` — the characters that padding is made of; `isBlank_iff`.
* `Spells` — a text that is a word but for padding and capitals; `settingWord_eq_iff`.
* `Lang.parse_eq_ok_iff`, `Mode.parse_eq_ok_iff` and what goes with them — the words that are accepted.
* `Config.ofLookup_eq_ok_iff`, `Config.ofLookup_eq_error_mode_iff`,
  `Config.ofLookup_eq_error_lang_iff` — the three ways in which reading a configuration ends.
* `settings_accepted_up_to_padding_and_case` — all of this together.
-/

set_option autoImplicit false
namespace BindOnce

/-! ## Padding -/

section Padding

/-- The characters with the Unicode property `White_Space`. -/
def whiteSpace : List Char :=
  ['\u0009', '\u000a', '\u000b', '\u000c', '\u000d', '\u0020', '\u0085', '\u00a0', '\u1680',
    '\u2000', '\u2001', '\u2002', '\u2003', '\u2004', '\u2005', '\u2006', '\u2007', '\u2008',
    '\u2009', '\u200a', '\u2028', '\u2029', '\u202f', '\u205f', '\u3000']

theorem isBlank_iff {c : Char} : isBlank c = true ↔ c ∈ whiteSpace := by
  simp only [isBlank, whiteSpace, List.mem_cons, List.not_mem_nil, ← Char.toNat_inj, Char.reduceToNat,
    Bool.or_eq_true, Bool.and_eq_true, decide_eq_true_eq, beq_iff_eq, or_false]
  omega

variable {u v w : List Char}

theorem trimBlanks_eq_rdropWhile (cs : List Char) :
    trimBlanks cs = (cs.dropWhile isBlank).rdropWhile isBlank := rfl

/-- Around what is left there were blanks. -/
theorem exists_eq_append_trimBlanks (cs : List Char) :
    ∃ u v, cs = u ++ trimBlanks cs ++ v ∧
      (∀ c ∈ u, isBlank c = true) ∧ ∀ c ∈ v, isBlank c = true := by
  refine ⟨cs.takeWhile isBlank, (cs.dropWhile isBlank).rtakeWhile isBlank, ?_,
    fun c hc => List.mem_takeWhile_imp hc, fun c hc => List.mem_rtakeWhile_imp hc⟩
  rw [trimBlanks_eq_rdropWhile, List.append_assoc, List.rdropWhile_append_rtakeWhile,
    List.takeWhile_append_dropWhile]

/-- Of a word between blanks the word is left. -/
theorem trimBlanks_append (hu : ∀ c ∈ u, isBlank c = true) (hv : ∀ c ∈ v, isBlank c = true)
    (hw : ∀ c ∈ w, isBlank c = false) : trimBlanks (u ++ w ++ v) = w := by
  have hright : (w ++ v).rdropWhile isBlank = w := by
    rw [List.rdropWhile, List.reverse_append,
      List.dropWhile_append_of_pos fun c hc => hv c (List.mem_reverse.1 hc), ← List.rdropWhile,
      List.rdropWhile_eq_self_iff]
    intro hne hlast
    rw [hw _ (List.getLast_mem hne)] at hlast
    cases hlast
  rw [trimBlanks_eq_rdropWhile, List.append_assoc, List.dropWhile_append_of_pos hu]
  cases w with
  | nil =>
    -- without a word the blanks behind it already go with those in front of it
    rw [List.nil_append, List.dropWhile_eq_nil_iff.2 hv, List.rdropWhile_nil]
  | cons c w =>
    rw [List.cons_append, List.dropWhile_cons_of_neg (by simp [hw c List.mem_cons_self])]
    exact hright

end Padding

/-! ## Capitals -/

section Capitals

variable {c d : Char}

/-- The first letter is an ASCII capital, and the second one is the same letter made small. -/
def IsCapitalOf (c d : Char) : Prop := 'A' ≤ c ∧ c ≤ 'Z' ∧ d.toNat = c.toNat + 32

/-- A small ASCII letter. -/
def IsSmall (c : Char) : Prop := 'a' ≤ c ∧ c ≤ 'z'

/-- The characters of the word, some of its letters possibly as capitals. -/
def CaseVariant (w word : List Char) : Prop :=
  List.Forall₂ (fun c d => c = d ∨ IsCapitalOf c d) w word

theorem toNat_toLower (c : Char) :
    c.toLower.toNat = if 'A' ≤ c ∧ c ≤ 'Z' then c.toNat + 32 else c.toNat := by
  split_ifs with h
  · have hle : c.toNat ≤ 90 := h.2
    have hlower : c.toLower.val = c.val + 32 := congrArg Char.val (dif_pos h)
    show c.toLower.val.toNat = c.val.toNat + 32
    rw [hlower, UInt32.toNat_add]
    exact Nat.mod_eq_of_lt (by simp; omega)
  · have hlower : c.toLower = c := dif_neg h
    rw [hlower]

/-- A capital becomes small, and all else stays as it is. -/
theorem toLower_eq_iff (hd : IsSmall d) : c.toLower = d ↔ c = d ∨ IsCapitalOf c d := by
  have hle : 97 ≤ d.toNat := hd.1
  rw [← Char.toNat_inj, toNat_toLower, ← Char.toNat_inj, IsCapitalOf]
  split_ifs with h
  · have hle' : c.toNat ≤ 90 := h.2
    simp only [h, true_and]
    omega
  · rw [← and_assoc, or_iff_left fun h' => h h'.1]

theorem map_toLower_eq_iff {w word : List Char} (hword : ∀ d ∈ word, IsSmall d) :
    w.map Char.toLower = word ↔ CaseVariant w word := by
  induction w generalizing word with
  | nil => cases word <;> simp [CaseVariant]
  | cons c w ih =>
    cases word with
    | nil => simp [CaseVariant]
    | cons d word =>
      rw [List.forall_mem_cons] at hword
      rw [List.map_cons, List.cons.injEq, toLower_eq_iff hword.1, ih hword.2, CaseVariant, CaseVariant,
        List.forall₂_cons]

/-- Letters are no padding. -/
theorem isBlank_eq_false (hd : IsSmall d) (h : c = d ∨ IsCapitalOf c d) : isBlank c = false := by
  have hletter : 65 ≤ c.toNat ∧ c.toNat ≤ 122 := by
    have hsmall : 97 ≤ d.toNat ∧ d.toNat ≤ 122 := hd
    rcases h with rfl | ⟨-, -, hcapital⟩ <;> omega
  have hblank : ∀ c ∈ whiteSpace, c.toNat < 65 ∨ 122 < c.toNat := by simp [whiteSpace]
  rw [Bool.eq_false_iff, Ne, isBlank_iff]
  intro hc
  have := hblank c hc
  omega

theorem CaseVariant.isBlank_eq_false {w word : List Char} (h : CaseVariant w word)
    (hword : ∀ d ∈ word, IsSmall d) : ∀ c ∈ w, isBlank c = false := by
  induction h with
  | nil => exact List.forall_mem_nil _
  | cons hcd _ ih =>
    rw [List.forall_mem_cons] at hword ⊢
    exact ⟨BindOnce.isBlank_eq_false hword.1 hcd, ih hword.2⟩

end Capitals

/-! ## Words -/

/-- The text is the word, but for white space at both ends and for letters that are ASCII capitals. -/
def Spells (s word : String) : Prop :=
  ∃ u w v : String, s = u ++ w ++ v ∧ (∀ c ∈ u.toList, c ∈ whiteSpace) ∧
    (∀ c ∈ v.toList, c ∈ whiteSpace) ∧ CaseVariant w.toList word.toList

theorem settingWord_eq_iff {s word : String} (hword : ∀ d ∈ word.toList, IsSmall d) :
    settingWord s = word ↔ Spells s word := by
  rw [settingWord, String.ext_iff, String.toList_ofList, map_toLower_eq_iff hword]
  constructor
  · intro h
    obtain ⟨u, v, hs, hu, hv⟩ := exists_eq_append_trimBlanks s.toList
    refine ⟨.ofList u, .ofList (trimBlanks s.toList), .ofList v, ?_, ?_, ?_, ?_⟩
    · rw [String.ext_iff]
      simpa only [String.toList_append, String.toList_ofList] using hs
    · simpa only [String.toList_ofList, ← isBlank_iff] using hu
    · simpa only [String.toList_ofList, ← isBlank_iff] using hv
    · rwa [String.toList_ofList]
  · rintro ⟨u, w, v, rfl, hu, hv, hw⟩
    rw [String.toList_append, String.toList_append,
      trimBlanks_append (fun c hc => isBlank_iff.2 (hu c hc)) (fun c hc => isBlank_iff.2 (hv c hc))
        (hw.isBlank_eq_false hword)]
    exact hw

/-- What a setting says is among some words exactly if the text is one of them but for padding and
capitals. -/
theorem settingWord_mem_iff {s : String} {words : List String}
    (hwords : ∀ word ∈ words, ∀ d ∈ word.toList, IsSmall d) :
    settingWord s ∈ words ↔ ∃ word ∈ words, Spells s word := by
  constructor
  · intro h
    exact ⟨_, h, (settingWord_eq_iff (hwords _ h)).1 rfl⟩
  · rintro ⟨word, hmem, h⟩
    rwa [(settingWord_eq_iff (hwords word hmem)).2 h]

namespace Lang

variable {s : String} {lang : Lang} {e : UnknownLang}

/-- The words for a language. -/
def words : Lang → List String
  | .waray => ["waray", "war"]
  | .tagalog => ["tagalog", "tl", "fil"]

theorem parse_eq_ok_iff : parse s = .ok lang ↔ ∃ word ∈ lang.words, Spells s word := by
  have hwords : ∀ word ∈ lang.words, ∀ d ∈ word.toList, IsSmall d := by
    cases lang <;> simp [words, IsSmall]
  rw [← settingWord_mem_iff hwords, parse]
  cases lang <;> split <;> simp_all [words]

/-- The failure carries the text as it was given. -/
theorem parse_eq_error_iff : parse s = .error e ↔ e = ⟨s⟩ ∧ ∀ lang, parse s ≠ .ok lang := by
  rw [parse]
  split <;> simp [eq_comm]

end Lang

namespace Mode

variable {s : String} {mode : Mode} {e : UnknownMode}

/-- The words for a mode. -/
def words : Mode → List String
  | .interpret => ["interpret"]
  | .transpile => ["transpile"]

theorem parse_eq_ok_iff : parse s = .ok mode ↔ ∃ word ∈ mode.words, Spells s word := by
  have hwords : ∀ word ∈ mode.words, ∀ d ∈ word.toList, IsSmall d := by
    cases mode <;> simp [words, IsSmall]
  rw [← settingWord_mem_iff hwords, parse]
  cases mode <;> split <;> simp_all [words]

/-- The failure carries the text as it was given. -/
theorem parse_eq_error_iff : parse s = .error e ↔ e = ⟨s⟩ ∧ ∀ mode, parse s ≠ .ok mode := by
  rw [parse]
  split <;> simp [eq_comm]

end Mode

/-! ## Configurations -/

section Setting

variable {ε α : Type} {parse : String → Except ε α} {initial a : α} {text : Option String}
  {e : ConfigError}

/-- A variable that is not set leaves the default, and one that is set to a known word gives what the
word says. -/
inductive Sets (parse : String → Except ε α) (initial : α) : Option String → α → Prop where
  | unset : Sets parse initial none initial
  | word {text : String} {a : α} : parse text = .ok a → Sets parse initial (some text) a

/-- What the text of a variable comes to, with a rejected one reported as `wrap` says. -/
def setting (parse : String → Except ε α) (initial : α) (wrap : ε → ConfigError) :
    Option String → Except ConfigError α
  | none => .ok initial
  | some text => (parse text).mapError wrap

theorem setting_eq_ok_iff (wrap : ε → ConfigError) :
    setting parse initial wrap text = .ok a ↔ Sets parse initial text a := by
  constructor
  · intro h
    cases text with
    | none =>
      cases h
      exact .unset
    | some text =>
      rw [setting] at h
      cases hparse : parse text with
      | error e => rw [hparse] at h; cases h
      | ok b =>
        rw [hparse] at h
        cases h
        exact .word hparse
  · rintro (_ | h)
    · rfl
    · rw [setting, h]
      rfl

theorem setting_eq_error_iff {wrap : ε → ConfigError} : setting parse initial wrap text = .error e ↔
    ∃ s e', text = some s ∧ parse s = .error e' ∧ e = wrap e' := by
  constructor
  · intro h
    cases text with
    | none => cases h
    | some text =>
      rw [setting] at h
      cases hparse : parse text with
      | error e' =>
        rw [hparse] at h
        cases h
        exact ⟨text, e', rfl, hparse, rfl⟩
      | ok b => rw [hparse] at h; cases h
  · rintro ⟨s, e', rfl, h, rfl⟩
    rw [setting, h]
    rfl

end Setting

namespace Config

variable {lookup : String → Option String}

/-- The mode is looked at first. -/
theorem ofLookup_eq (lookup : String → Option String) : ofLookup lookup =
    (setting Mode.parse .interpret .mode (lookup "WARAY_MODE")).bind fun mode =>
      (setting Lang.parse .waray .lang (lookup "WARAY_LANG")).bind fun lang => .ok ⟨mode, lang⟩ := by
  rw [ofLookup, modeVariable, langVariable]
  cases lookup "WARAY_MODE" <;> cases lookup "WARAY_LANG" <;> rfl

theorem ofLookup_eq_ok_iff {config : Config} : ofLookup lookup = .ok config ↔
    Sets Mode.parse .interpret (lookup "WARAY_MODE") config.mode ∧
      Sets Lang.parse .waray (lookup "WARAY_LANG") config.lang := by
  obtain ⟨mode, lang⟩ := config
  rw [ofLookup_eq, ← setting_eq_ok_iff .mode, ← setting_eq_ok_iff .lang]
  cases setting Mode.parse .interpret .mode (lookup "WARAY_MODE") with
  | error e => simp [Except.bind]
  | ok mode' => cases setting Lang.parse .waray .lang (lookup "WARAY_LANG") <;> simp [Except.bind]

theorem ofLookup_eq_error_mode_iff {e : UnknownMode} : ofLookup lookup = .error (.mode e) ↔
    ∃ text, lookup "WARAY_MODE" = some text ∧ Mode.parse text = .error e := by
  have hmode : setting Mode.parse .interpret .mode (lookup "WARAY_MODE") = .error (.mode e) ↔
      ∃ text, lookup "WARAY_MODE" = some text ∧ Mode.parse text = .error e := by
    simp [setting_eq_error_iff]
  have hlang : setting Lang.parse .waray .lang (lookup "WARAY_LANG") ≠ .error (.mode e) := by
    simp [setting_eq_error_iff]
  rw [ofLookup_eq, ← hmode]
  cases setting Mode.parse .interpret .mode (lookup "WARAY_MODE") with
  | error e' => simp [Except.bind]
  | ok mode' =>
    cases hl : setting Lang.parse .waray .lang (lookup "WARAY_LANG") with
    | error e' => rw [hl] at hlang; simpa [Except.bind] using hlang
    | ok lang' => simp [Except.bind]

theorem ofLookup_eq_error_lang_iff {e : UnknownLang} : ofLookup lookup = .error (.lang e) ↔
    (∃ mode, Sets Mode.parse .interpret (lookup "WARAY_MODE") mode) ∧
      ∃ text, lookup "WARAY_LANG" = some text ∧ Lang.parse text = .error e := by
  have hmode : setting Mode.parse .interpret .mode (lookup "WARAY_MODE") ≠ .error (.lang e) := by
    simp [setting_eq_error_iff]
  have hlang : setting Lang.parse .waray .lang (lookup "WARAY_LANG") = .error (.lang e) ↔
      ∃ text, lookup "WARAY_LANG" = some text ∧ Lang.parse text = .error e := by
    simp [setting_eq_error_iff]
  simp only [ofLookup_eq, ← hlang, ← setting_eq_ok_iff ConfigError.mode]
  cases hm : setting Mode.parse .interpret .mode (lookup "WARAY_MODE") with
  | error e' => rw [hm] at hmode; simpa [Except.bind] using hmode
  | ok mode' => cases setting Lang.parse .waray .lang (lookup "WARAY_LANG") <;> simp [Except.bind]

end Config

/-- **Settings are accepted up to padding and case.**  A text names a language or a mode exactly if it
is one of the words for it between any white space, with any of its letters as ASCII capitals; of all
other texts the failure carries the text as it was given.  A configuration is read from two variables
and from nothing else: a wrong mode is reported whatever the language is, then a wrong language, and
otherwise each of the two is what its variable says, or the default where the variable is not set. -/
theorem settings_accepted_up_to_padding_and_case :
    (∀ s : String,
      (Lang.parse s = .ok .waray ↔ Spells s "waray" ∨ Spells s "war") ∧
      (Lang.parse s = .ok .tagalog ↔ Spells s "tagalog" ∨ Spells s "tl" ∨ Spells s "fil") ∧
      (∀ e, Lang.parse s = .error e ↔ e = ⟨s⟩ ∧ ∀ lang, Lang.parse s ≠ .ok lang)) ∧
    (∀ s : String,
      (Mode.parse s = .ok .interpret ↔ Spells s "interpret") ∧
      (Mode.parse s = .ok .transpile ↔ Spells s "transpile") ∧
      (∀ e, Mode.parse s = .error e ↔ e = ⟨s⟩ ∧ ∀ mode, Mode.parse s ≠ .ok mode)) ∧
    (∀ lookup lookup' : String → Option String, lookup "WARAY_MODE" = lookup' "WARAY_MODE" →
      lookup "WARAY_LANG" = lookup' "WARAY_LANG" →
        Config.ofLookup lookup = Config.ofLookup lookup') ∧
    (∀ lookup : String → Option String,
      (∀ e, Config.ofLookup lookup = .error (.mode e) ↔
        ∃ text, lookup "WARAY_MODE" = some text ∧ Mode.parse text = .error e) ∧
      (∀ e, Config.ofLookup lookup = .error (.lang e) ↔
        (∃ mode, Sets Mode.parse .interpret (lookup "WARAY_MODE") mode) ∧
          ∃ text, lookup "WARAY_LANG" = some text ∧ Lang.parse text = .error e) ∧
      (∀ config, Config.ofLookup lookup = .ok config ↔
        Sets Mode.parse .interpret (lookup "WARAY_MODE") config.mode ∧
          Sets Lang.parse .waray (lookup "WARAY_LANG") config.lang)) := by
  refine ⟨fun s => ⟨?_, ?_, fun e => Lang.parse_eq_error_iff⟩,
    fun s => ⟨?_, ?_, fun e => Mode.parse_eq_error_iff⟩, fun lookup lookup' hmode hlang => ?_,
    fun lookup => ⟨fun e => Config.ofLookup_eq_error_mode_iff,
      fun e => Config.ofLookup_eq_error_lang_iff, fun config => Config.ofLookup_eq_ok_iff⟩⟩
  · simp [Lang.parse_eq_ok_iff, Lang.words]
  · simp [Lang.parse_eq_ok_iff, Lang.words]
  · simp [Mode.parse_eq_ok_iff, Mode.words]
  · simp [Mode.parse_eq_ok_iff, Mode.words]
  · rw [Config.ofLookup_eq, Config.ofLookup_eq, hmode, hlang]

example : Lang.parse "\u3000TagaLog\u0085" = .ok .tagalog := by decide +kernel

example : Mode.parse "\u0130nterpret" = .error ⟨"\u0130nterpret"⟩ := by decide +kernel

end BindOnce
