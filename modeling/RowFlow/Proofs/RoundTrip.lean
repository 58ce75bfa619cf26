import Mathlib.Algebra.Ring.Int.Defs
import Mathlib.Data.List.TakeWhile
import RowFlow.Json.Printer
import RowFlow.Json.Reader
import RowFlow.Proofs.Dictionaries

/-!
# Reading back what has been written

A written value is cut into its tokens again, whatever follows it (`Json.Storable.scans`), and the
tokens of a value are read as that value, whatever containers are still open
(`Json.Storable.reads`). So a value that JSON can keep is read back from its text
(`Json.read?_print`).
-/

namespace RowFlow.Json

/-- A value that JSON can keep: there are no doubles in it, its integers fit 64 bits, the fields of
its objects are in key order, and its containers are nested at most so deep. -/
inductive Storable : Nat → Value → Prop
  | null : Storable depth .null
  | bool : Storable depth (.bool b)
  | int : -2 ^ 63 ≤ n → n < 2 ^ 64 → Storable depth (.number (.int n))
  | text : Storable depth (.text s)
  | list : (∀ v ∈ items, Storable depth v) → Storable (depth + 1) (.list items)
  | object : Dict.Ordered fields → (∀ field ∈ fields, Storable depth field.2) →
    Storable (depth + 1) (.object fields)

/-- A value that can be stored in little depth can be stored in more. -/
theorem Storable.mono (h : Storable depth v) (hle : depth ≤ depth') : Storable depth' v := by
  induction h generalizing depth' with
  | null => exact .null
  | bool => exact .bool
  | int hlow hhigh => exact .int hlow hhigh
  | text => exact .text
  | list _ ih =>
    obtain ⟨depth', rfl⟩ := Nat.exists_eq_add_of_lt hle
    exact .list fun v hv => ih v hv (by omega)
  | object hordered _ ih =>
    obtain ⟨depth', rfl⟩ := Nat.exists_eq_add_of_lt hle
    exact .object hordered fun field hfield => ih field hfield (by omega)

/-! ## Integers -/

theorem isDigit_of_mem_digitsOf (h : c ∈ Decimal.digitsOf n) : isDigit c = true := by
  have hdigit : c.isDigit = true := Nat.isDigit_of_mem_toDigits (by decide) (by decide) h
  simp only [Char.isDigit, Bool.and_eq_true, decide_eq_true_eq] at hdigit
  simpa [isDigit, Char.le_def] using hdigit

/-- The digits of a number are read back as that number. -/
theorem natOfDigits_digitsOf (n : Nat) : natOfDigits (Decimal.digitsOf n) = n :=
  Nat.ofDigitChars_toDigits (by decide) (by decide)

/-- There are no leading zeros. -/
theorem head?_digitsOf (h : 0 < n) : (Decimal.digitsOf n).head? ≠ some '0' := by
  unfold Decimal.digitsOf
  induction n using Nat.base_induction 10 (by decide) with
  | single m hm =>
    rw [Nat.toDigits_of_lt_base hm]
    simpa using Nat.ne_of_gt h
  | digit m k hk hm ih =>
    rw [← Nat.toDigits_append_toDigits (by decide) hm hk,
      List.head?_append_of_ne_nil _ Nat.toDigits_ne_nil]
    exact ih hm

theorem digitsOf_ne_nil (n : Nat) : Decimal.digitsOf n ≠ [] := Nat.toDigits_ne_nil

/-- A digit that stands in front is no zero, unless it is alone. -/
theorem whole_digitsOf (n : Nat) :
    ¬ (Decimal.digitsOf n = [] ∨
      ((Decimal.digitsOf n).head? = some '0' ∧ 1 < (Decimal.digitsOf n).length)) := by
  rcases Nat.eq_zero_or_pos n with rfl | hn
  · decide
  · rintro (hnil | ⟨hzero, -⟩)
    · exact digitsOf_ne_nil n hnil
    · exact head?_digitsOf hn hzero

theorem takeWhile_digitsOf (n : Nat) :
    (Decimal.digitsOf n).takeWhile isDigit = Decimal.digitsOf n :=
  List.takeWhile_eq_self_iff.mpr fun _ h => isDigit_of_mem_digitsOf h

theorem dropWhile_digitsOf (n : Nat) : (Decimal.digitsOf n).dropWhile isDigit = [] :=
  List.dropWhile_eq_nil_iff.mpr fun _ h => isDigit_of_mem_digitsOf h

theorem ofChars?_digitsOf (n : Nat) :
    NumberText.ofChars? (Decimal.digitsOf n) = some ⟨false, Decimal.digitsOf n, none, none⟩ := by
  unfold NumberText.ofChars?
  split
  rename_i hsplit
  split at hsplit
  · rename_i heq
    have := isDigit_of_mem_digitsOf (n := n) (c := '-') (by simp [heq])
    cases this
  · cases hsplit
    simp [takeWhile_digitsOf, dropWhile_digitsOf, whole_digitsOf]
    rfl

theorem ofChars?_minus_digitsOf (n : Nat) :
    NumberText.ofChars? ('-' :: Decimal.digitsOf n) =
      some ⟨true, Decimal.digitsOf n, none, none⟩ := by
  simp only [NumberText.ofChars?, takeWhile_digitsOf, dropWhile_digitsOf, if_neg (whole_digitsOf n)]
  rfl

/-- An integer is read back if it fits into 64 bits, with a sign or without one. -/
theorem readNumber?_writeInt (hlow : -2 ^ 63 ≤ n) (hhigh : n < 2 ^ 64) :
    readNumber? (writeInt n) = some (.int n) := by
  unfold writeInt
  split
  · rename_i hneg
    obtain ⟨m, rfl⟩ : ∃ m : Nat, n = -m := ⟨n.natAbs, by omega⟩
    have hrange : m ≠ 0 ∧ m ≤ 9223372036854775808 := by omega
    simp [readNumber?, ofChars?_minus_digitsOf, natOfDigits_digitsOf, hrange]
  · obtain ⟨m, rfl⟩ : ∃ m : Nat, n = m := ⟨n.natAbs, by omega⟩
    have hrange : m < 18446744073709551616 := by omega
    simp [readNumber?, ofChars?_digitsOf, natOfDigits_digitsOf, hrange]

theorem mem_writeInt (h : c ∈ writeInt n) : c = '-' ∨ isDigit c = true := by
  unfold writeInt at h
  split at h
  · exact (List.mem_cons.mp h).imp_right isDigit_of_mem_digitsOf
  · exact .inr (isDigit_of_mem_digitsOf h)

theorem writeInt_ne_nil (n : Int) : writeInt n ≠ [] := by
  unfold writeInt
  split
  · exact List.cons_ne_nil _ _
  · exact digitsOf_ne_nil _

theorem word?_writeInt (hlow : -2 ^ 63 ≤ n) (hhigh : n < 2 ^ 64) :
    Progress.word? (writeInt n) = some (.number (.int n)) := by
  -- the other words have letters in them
  have hne {c : Char} (cs : List Char) (hc : c ≠ '-' ∧ isDigit c = false) :
      writeInt n ≠ c :: cs := by
    intro heq
    have hmem : c ∈ writeInt n := heq ▸ List.mem_cons_self
    simpa [hc] using mem_writeInt hmem
  rw [Progress.word?, if_neg (hne _ (by decide)), if_neg (hne _ (by decide)),
    if_neg (hne _ (by decide)), readNumber?_writeInt hlow hhigh]
  rfl

/-! ## Cutting texts into tokens -/

theorem hexValue?_hexDigit (h : n < 16) : hexValue? (hexDigit n) = some n := by
  have hall : ∀ n : Fin 16, hexValue? (hexDigit n) = some n.val := by decide
  exact hall ⟨n, h⟩

namespace Token

/-- A character that ends a word. -/
def endsWord (c : Char) : Bool := isBlank c || c = '"' || (punctuation? c).isSome

theorem step_word (h : endsWord c = false) :
    step (.word held) c = some ([], .word (c :: held)) := by
  simp only [endsWord, Bool.or_eq_false_iff, decide_eq_false_iff_not] at h
  simp [step, h]

theorem step_word_ends (h : endsWord c = true) :
    step (.word held) c =
      some (.word held.reverse :: (stepBetween c).1, (stepBetween c).2) := by
  simp only [endsWord, Bool.or_eq_true, decide_eq_true_eq, or_assoc] at h
  simp [step, h]

theorem stepBetween_punctuation (h : punctuation? c = some token) :
    stepBetween c = ([token], .between) := by
  have hblank : isBlank c = false ∧ c ≠ '"' := by
    unfold punctuation? at h
    split at h
    case h_7 => cases h
    all_goals decide
  simp [stepBetween, hblank, h]

theorem stepBetween_word (h : endsWord c = false) : stepBetween c = ([], .word [c]) := by
  simp only [endsWord, Bool.or_eq_false_iff, decide_eq_false_iff_not,
    Option.isSome_eq_false_iff, Option.isNone_iff_eq_none] at h
  simp [stepBetween, h]

theorem scanFrom?_cons (h : step mode c = some (tokens, mode')) (cs : List Char) :
    scanFrom? mode (c :: cs) = (scanFrom? mode' cs).map (tokens ++ ·) := by
  simp only [scanFrom?, h, Option.bind_eq_bind, Option.bind_some]
  cases scanFrom? mode' cs <;> rfl

theorem finishUnit_control (h : c.toNat < 32) :
    finishUnit held none c.toNat = some (.text (c :: held)) := by
  have hhigh : isHigh c.toNat = false := by simp [isHigh]; omega
  have hlow : isLow c.toNat = false := by simp [isLow]; omega
  simp [finishUnit, hhigh, hlow, Char.ofNat_toNat]

theorem scanFrom?_short (h : unescape? letter = some c) (held rest : List Char) :
    scanFrom? (.text held) ('\\' :: letter :: rest) = scanFrom? (.text (c :: held)) rest := by
  have hopen : step (.text held) '\\' = some ([], .escape held) := rfl
  have hletter : step (.escape held) letter = some ([], .text (c :: held)) := by
    have hne : letter ≠ 'u' := by
      rintro rfl
      cases h
    simp [step, hne, h]
  rw [scanFrom?_cons hopen, scanFrom?_cons hletter, Option.map_map]
  exact Option.map_id' ..

/-- An escaped character is taken for the character. -/
theorem scanFrom?_escape (c : Char) (held rest : List Char) :
    scanFrom? (.text held) (escape c ++ rest) = scanFrom? (.text (c :: held)) rest := by
  unfold escape
  -- the characters with a short escape come first
  iterate 7
    split
    · subst c
      exact scanFrom?_short rfl held rest
  split
  · rename_i hcontrol
    have hupper := hexValue?_hexDigit (n := c.toNat / 16) (by omega)
    have hlower := hexValue?_hexDigit (n := c.toNat % 16) (by omega)
    have hunit : 16 * (c.toNat / 16) + c.toNat % 16 = c.toNat := by omega
    have hzero : hexValue? '0' = some 0 := by decide
    simp [scanFrom?, step, hzero, hupper, hlower, hunit, finishUnit_control hcontrol]
  · rename_i hquote hbackslash _ _ _ _ _ hcontrol
    simp [scanFrom?, step, hquote, hbackslash, hcontrol]

/-- A text that has been escaped is scanned back whatever its characters are. -/
theorem scanFrom?_flatMap_escape (cs held rest : List Char) :
    scanFrom? (.text held) (cs.flatMap escape ++ rest) =
      scanFrom? (.text (cs.reverse ++ held)) rest := by
  induction cs generalizing held with
  | nil => rfl
  | cons c cs ih =>
    rw [List.flatMap_cons, List.append_assoc, scanFrom?_escape, ih, List.reverse_cons,
      List.append_assoc]
    rfl

/-! ### Texts and their tokens -/

/-- A text does not go on with a word. -/
def Apart : List Char → Prop
  | [] => True
  | c :: _ => endsWord c = true

/-- A text is cut into these tokens, whatever comes after it and does not go on with a word. -/
def Scans (cs : List Char) (tokens : List Token) : Prop :=
  ∀ rest, Apart rest → scanFrom? .between (cs ++ rest) = (scanFrom? .between rest).map (tokens ++ ·)

theorem Scans.nil : Scans [] [] := fun rest _ => by
  simp

theorem Scans.scan? (h : Scans cs tokens) : Token.scan? cs = some tokens := by
  have hall := h [] trivial
  simpa [Token.scan?, scanFrom?, finish?] using hall

/-- Punctuation stands for itself. -/
theorem Scans.punctuation (hc : punctuation? c = some token) (h : Scans cs tokens) :
    Scans (c :: cs) (token :: tokens) := by
  intro rest hrest
  have hstep : step .between c = some ([token], .between) :=
    congrArg some (stepBetween_punctuation hc)
  rw [List.cons_append, scanFrom?_cons hstep, h rest hrest, Option.map_map]
  rfl

/-- A quoted text is one token. -/
theorem Scans.quote (s : String) (h : Scans cs tokens) :
    Scans (quote s ++ cs) (.text s :: tokens) := by
  intro rest hrest
  have hopen : step .between '"' = some ([], .text []) := rfl
  have hclose : step (.text (s.toList.reverse ++ [])) '"' = some ([.text s], .between) := by
    simp [step]
  rw [Json.quote, List.cons_append, List.cons_append, scanFrom?_cons hopen, List.append_assoc,
    List.append_assoc, scanFrom?_flatMap_escape, List.singleton_append, scanFrom?_cons hclose,
    h rest hrest, Option.map_map, Option.map_map]
  rfl

/-- Blanks in front of a text make no difference to its tokens. -/
theorem Scans.blank (hc : isBlank c = true) (h : Scans cs tokens) : Scans (c :: cs) tokens := by
  intro rest hrest
  have hstep : step .between c = some ([], .between) := by simp [step, stepBetween, hc]
  rw [List.cons_append, scanFrom?_cons hstep, h rest hrest, Option.map_map]
  rfl

/-- Texts are cut one after another if the second does not go on with a word. -/
theorem Scans.append (h : Scans cs tokens) (h' : Scans cs' tokens')
    (hapart : ∀ rest, Apart rest → Apart (cs' ++ rest)) :
    Scans (cs ++ cs') (tokens ++ tokens') := by
  intro rest hrest
  rw [List.append_assoc, h _ (hapart rest hrest), h' rest hrest, Option.map_map]
  congr 1
  funext others
  exact (List.append_assoc ..).symm

theorem scanFrom?_word (hcs : ∀ c ∈ cs, endsWord c = false) (held rest : List Char)
    (hrest : Apart rest) :
    scanFrom? (.word held) (cs ++ rest) =
      (scanFrom? .between rest).map (.word (held.reverse ++ cs) :: ·) := by
  induction cs generalizing held with
  | nil =>
    rw [List.append_nil, List.nil_append]
    cases rest with
    | nil => rfl
    | cons c rest =>
      have hbetween : step .between c = some (stepBetween c) := rfl
      rw [scanFrom?_cons (step_word_ends hrest), scanFrom?_cons hbetween, Option.map_map]
      rfl
  | cons c cs ih =>
    obtain ⟨hc, hcs⟩ := List.forall_mem_cons.mp hcs
    rw [List.cons_append, scanFrom?_cons (step_word hc), ih hcs, List.reverse_cons,
      List.append_assoc, Option.map_map]
    rfl

theorem Scans.word (hne : cs ≠ []) (hcs : ∀ c ∈ cs, endsWord c = false) :
    Scans cs [.word cs] := by
  intro rest hrest
  cases cs with
  | nil => contradiction
  | cons c cs =>
    obtain ⟨hc, hcs⟩ := List.forall_mem_cons.mp hcs
    have hstep : step .between c = some ([], .word [c]) := congrArg some (stepBetween_word hc)
    rw [List.cons_append, scanFrom?_cons hstep, scanFrom?_word hcs _ _ hrest, Option.map_map]
    rfl

end Token

/-! ## The tokens of a value -/

mutual

/-- The tokens that a value is written with. -/
def tokens : Value → List Token
  | .null => [.word ['n', 'u', 'l', 'l']]
  | .bool true => [.word ['t', 'r', 'u', 'e']]
  | .bool false => [.word ['f', 'a', 'l', 's', 'e']]
  | .number n => [.word (writeNumber n)]
  | .text s => [.text s]
  | .list items => .openList :: (itemTokens items ++ [.closeList])
  | .object fields => .openObject :: (fieldTokens fields ++ [.closeObject])

def itemTokens : List Value → List Token
  | [] => []
  | [v] => tokens v
  | v :: vs => tokens v ++ .comma :: itemTokens vs

def fieldTokens : List (String × Value) → List Token
  | [] => []
  | [(k, v)] => .text k :: .colon :: tokens v
  | (k, v) :: fields => .text k :: .colon :: (tokens v ++ .comma :: fieldTokens fields)

end

section
open Token

theorem apart_punctuation (h : (punctuation? c).isSome) (cs : List Char) : Apart (c :: cs) := by
  simp [Apart, endsWord, h]

theorem scans_word (cs : List Char) (hne : cs ≠ []) (h : cs.all (!endsWord ·)) :
    Scans cs [.word cs] :=
  .word hne fun c hc => by simpa using List.all_eq_true.mp h c hc

theorem not_isDigit_of_endsWord (h : endsWord c = true) : isDigit c = false := by
  simp only [endsWord, isBlank, Bool.or_eq_true, decide_eq_true_eq, or_assoc] at h
  rcases h with rfl | rfl | rfl | rfl | rfl | h
  case inr.inr.inr.inr.inr =>
    unfold punctuation? at h
    split at h
    case h_7 => cases h
    all_goals decide
  all_goals decide

theorem scans_writeInt (n : Int) : Scans (writeInt n) [.word (writeInt n)] := by
  refine .word (writeInt_ne_nil n) fun c hc => ?_
  rcases mem_writeInt hc with rfl | hdigit
  · decide
  · by_contra hends
    rw [not_isDigit_of_endsWord (by simpa using hends)] at hdigit
    cases hdigit

theorem scans_writeItems (h : ∀ v ∈ items, Scans (write v) (tokens v)) :
    Scans (writeItems items) (itemTokens items) := by
  induction items with
  | nil => exact .nil
  | cons v vs ih =>
    obtain ⟨hv, hvs⟩ := List.forall_mem_cons.mp h
    cases vs with
    | nil => exact hv
    | cons w vs =>
      exact hv.append (.punctuation rfl (ih hvs)) fun _ _ => apart_punctuation rfl _

/-- The tokens of an object are those of its fields, in order. -/
theorem scans_writeFields {fields : List (String × Value)}
    (h : ∀ field ∈ fields, Scans (write field.2) (tokens field.2)) :
    Scans (writeFields fields) (fieldTokens fields) := by
  induction fields with
  | nil => exact .nil
  | cons field fields ih =>
    obtain ⟨name, v⟩ := field
    obtain ⟨hv, hfields⟩ := List.forall_mem_cons.mp h
    cases fields with
    | nil => exact .quote name (.punctuation rfl hv)
    | cons next fields =>
      have hrest : Scans (',' :: writeFields (next :: fields))
          (.comma :: fieldTokens (next :: fields)) := .punctuation rfl (ih hfields)
      exact .quote name (.punctuation rfl
        (hv.append hrest fun _ _ => apart_punctuation rfl _))

/-- A written value is cut into its tokens. -/
theorem Storable.scans (h : Storable depth v) : Scans (write v) (tokens v) := by
  induction h with
  | null => exact scans_word _ (by decide) (by decide)
  | @bool _ b => cases b <;> exact scans_word _ (by decide) (by decide)
  | int => exact scans_writeInt _
  | @text _ s =>
    have hquote := Scans.quote s .nil
    rwa [List.append_nil] at hquote
  | list _ ih =>
    exact .punctuation rfl ((scans_writeItems ih).append (.punctuation rfl .nil)
      fun _ _ => apart_punctuation rfl _)
  | object _ _ ih =>
    exact .punctuation rfl ((scans_writeFields ih).append (.punctuation rfl .nil)
      fun _ _ => apart_punctuation rfl _)

end

/-! ## Reading tokens -/

namespace Progress

/-- Where a value is expected, the tokens are read as that value, if so many containers may still be
opened. -/
def Reads (depth : Nat) (v : Value) : Prop :=
  ∀ stack rest, stack.length + depth ≤ deepest →
    run (.reading stack .value) (tokens v ++ rest) = (deliver v stack).bind (run · rest)

theorem run_cons (h : step progress token = some progress') (rest : List Token) :
    run progress (token :: rest) = run progress' rest := by
  cases progress <;> simp [run, h]

/-- No value starts with the end of a list. -/
theorem tokens_eq_cons (v : Value) :
    ∃ token rest, tokens v = token :: rest ∧ token ≠ .closeList := by
  match v with
  | .null => exact ⟨_, _, tokens.eq_1, nofun⟩
  | .bool true => exact ⟨_, _, tokens.eq_2, nofun⟩
  | .bool false => exact ⟨_, _, tokens.eq_3, nofun⟩
  | .number n => exact ⟨_, _, tokens.eq_4 n, nofun⟩
  | .text s => exact ⟨_, _, tokens.eq_5 s, nofun⟩
  | .list items => exact ⟨_, _, tokens.eq_6 items, nofun⟩
  | .object fields => exact ⟨_, _, tokens.eq_7 fields, nofun⟩

theorem run_firstItem (stack : List Frame) (v : Value) (rest : List Token) :
    run (.reading stack .firstItem) (tokens v ++ rest) =
      run (.reading stack .value) (tokens v ++ rest) := by
  obtain ⟨token, others, htokens, hne⟩ := tokens_eq_cons v
  rw [htokens, List.cons_append, run, run]
  simp [step, hne]

theorem reads_text (s : String) : Reads depth (.text s) := fun stack rest _ => by
  simp [tokens, run, step, startValue]

theorem reads_word (htokens : tokens v = [.word cs]) (hword : word? cs = some v) :
    Reads depth v := fun stack rest _ => by
  rw [htokens]
  simp [run, step, startValue, hword]

/-- The items of a list are read one by one, and kept in reverse until the list is closed. -/
theorem run_items (h : ∀ v ∈ items, Reads depth v) (hne : items ≠ []) (held : List Value)
    {stack : List Frame} (hdepth : stack.length + (depth + 1) ≤ deepest) (rest : List Token) :
    run (.reading (.list held :: stack) .value) (itemTokens items ++ .closeList :: rest) =
      (deliver (.list (held.reverse ++ items)) stack).bind (run · rest) := by
  induction items generalizing held with
  | nil => contradiction
  | cons v vs ih =>
    obtain ⟨hv, hvs⟩ := List.forall_mem_cons.mp h
    have hroom : (Frame.list held :: stack).length + depth ≤ deepest := by
      simp only [List.length_cons]
      omega
    cases vs with
    | nil =>
      rw [itemTokens, hv _ _ hroom]
      simp [deliver, run, step, closeList]
    | cons w vs =>
      have hrest := ih hvs (List.cons_ne_nil _ _) (v :: held)
      rw [List.reverse_cons, List.append_assoc, List.singleton_append] at hrest
      rw [itemTokens, List.append_assoc, hv _ _ hroom, ← hrest]
      · rfl
      · exact List.cons_ne_nil _ _

theorem itemTokens_cons (v : Value) (vs : List Value) :
    ∃ more, itemTokens (v :: vs) = tokens v ++ more := by
  cases vs with
  | nil => exact ⟨[], by rw [itemTokens, List.append_nil]⟩
  | cons w vs => exact ⟨_, itemTokens.eq_3 v (w :: vs) (List.cons_ne_nil w vs)⟩

theorem reads_list (h : ∀ v ∈ items, Reads depth v) : Reads (depth + 1) (.list items) := by
  intro stack rest hdepth
  have hopen : step (.reading stack .value) .openList =
      some (.reading (.list [] :: stack) .firstItem) :=
    if_pos (show stack.length < deepest by omega)
  rw [tokens, List.cons_append, run_cons hopen, List.append_assoc, List.singleton_append]
  cases items with
  | nil => simp [itemTokens, run, step, closeList]
  | cons v vs =>
    obtain ⟨more, hmore⟩ := itemTokens_cons v vs
    have hall := run_items h (List.cons_ne_nil v vs) [] hdepth rest
    rw [hmore, List.append_assoc] at hall ⊢
    rw [run_firstItem, hall]
    rfl

theorem run_fields {fields : List (String × Value)} (h : ∀ field ∈ fields, Reads depth field.2)
    (hne : fields ≠ []) (held : List (String × Value)) {stack : List Frame}
    (hdepth : stack.length + (depth + 1) ≤ deepest) (rest : List Token) :
    run (.reading (.object held none :: stack) .name) (fieldTokens fields ++ .closeObject :: rest) =
      (deliver (.object (held.reverse ++ fields)) stack).bind (run · rest) := by
  induction fields generalizing held with
  | nil => contradiction
  | cons field fields ih =>
    obtain ⟨name, v⟩ := field
    obtain ⟨hv, hfields⟩ := List.forall_mem_cons.mp h
    have hname : step (.reading (.object held none :: stack) .name) (.text name) =
        some (.reading (.object held (some name) :: stack) .colon) := rfl
    have hcolon : step (.reading (.object held (some name) :: stack) .colon) .colon =
        some (.reading (.object held (some name) :: stack) .value) := rfl
    have hroom : (Frame.object held (some name) :: stack).length + depth ≤ deepest := by
      simp only [List.length_cons]
      omega
    cases fields with
    | nil =>
      rw [fieldTokens, List.cons_append, List.cons_append, run_cons hname, run_cons hcolon,
        hv _ _ hroom]
      simp [deliver, run, step, closeObject]
    | cons next fields =>
      have hrest := ih hfields (List.cons_ne_nil _ _) ((name, v) :: held)
      rw [List.reverse_cons, List.append_assoc, List.singleton_append] at hrest
      rw [fieldTokens, List.cons_append, List.cons_append, List.append_assoc, run_cons hname,
        run_cons hcolon, hv _ _ hroom, ← hrest]
      · rfl
      · exact List.cons_ne_nil _ _

/-- Where a name may come or the end, a name is read as where only a name may come. -/
theorem run_firstName (stack : List Frame) (name : String) (rest : List Token) :
    run (.reading stack .firstName) (.text name :: rest) =
      run (.reading stack .name) (.text name :: rest) := by
  rw [run, run]
  simp [step]

theorem reads_object {fields : List (String × Value)} (h : ∀ field ∈ fields, Reads depth field.2) :
    Reads (depth + 1) (.object fields) := by
  intro stack rest hdepth
  have hopen : step (.reading stack .value) .openObject =
      some (.reading (.object [] none :: stack) .firstName) :=
    if_pos (show stack.length < deepest by omega)
  rw [tokens, List.cons_append, run_cons hopen, List.append_assoc, List.singleton_append]
  cases fields with
  | nil => simp [fieldTokens, run, step, closeObject]
  | cons field fields =>
    have hall := run_fields h (List.cons_ne_nil field fields) [] hdepth rest
    obtain ⟨more, hmore⟩ : ∃ more, fieldTokens (field :: fields) = .text field.1 :: more := by
      cases fields <;> exact ⟨_, rfl⟩
    rw [hmore, List.cons_append] at hall ⊢
    rw [run_firstName, hall]
    rfl

end Progress

open Progress in
/-- By induction on how the value is stored, with the depth that is left going down. -/
theorem Storable.reads (h : Storable depth v) : Reads depth v := by
  induction h with
  | null => exact reads_word rfl rfl
  | @bool _ b => cases b <;> exact reads_word rfl rfl
  | int hlow hhigh => exact reads_word rfl (word?_writeInt hlow hhigh)
  | text => exact reads_text _
  | list _ ih => exact reads_list ih
  | object _ _ ih => exact reads_object ih

/-! ## Values that are read back -/

theorem normalItems_eq (h : ∀ v ∈ items, Value.normal v = v) : Value.normalItems items = items := by
  induction items with
  | nil => rfl
  | cons v vs ih =>
    obtain ⟨hv, hvs⟩ := List.forall_mem_cons.mp h
    rw [Value.normalItems, hv, ih hvs]

theorem normalFields_eq {fields : List (String × Value)}
    (h : ∀ field ∈ fields, Value.normal field.2 = field.2) :
    Value.normalFields fields = fields := by
  induction fields with
  | nil => rfl
  | cons field fields ih =>
    obtain ⟨hv, hfields⟩ := List.forall_mem_cons.mp h
    rw [Value.normalFields, hv, ih hfields]

/-- A value that can be stored has its fields in order already. -/
theorem Storable.normal (h : Storable depth v) : v.normal = v := by
  induction h with
  | null | bool | int | text => rfl
  | list _ ih => exact congrArg Value.list (normalItems_eq ih)
  | object hordered _ ih =>
    rw [Value.normal, normalFields_eq ih, hordered.ofEntries]

/-- Tokens of a value alone are read as the value. -/
theorem Progress.Reads.readRaw? (h : Progress.Reads Progress.deepest v)
    (hscans : Token.Scans cs (tokens v)) : readRaw? cs = some v := by
  have hreads := h [] [] (Nat.le_of_eq (Nat.zero_add _))
  rw [List.append_nil] at hreads
  rw [Json.readRaw?, hscans.scan?]
  exact hreads

theorem Storable.readRaw? (h : Storable Progress.deepest v) (hscans : Token.Scans cs (tokens v)) :
    readRaw? cs = some v := h.reads.readRaw? hscans

/-- What is printed is read back. -/
theorem read?_print (h : Storable Progress.deepest v) : read? (print v) = some v := by
  rw [read?, print, String.toList_ofList, h.readRaw? h.scans, Option.map_some, h.normal]

end RowFlow.Json
