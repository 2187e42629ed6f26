import Bango.Chat.Commands
import Bango.Processor.Proofs.Layout

set_option autoImplicit false

/-! # Commands are read as they are written

A command with its arguments, written with white space between them, is what `OnChatting` reads: a word
ends at a space only, and the white space before it is skipped. -/

namespace Bango.Chat

open Bango.Processor

variable {word text : List UInt8} {words : List (List UInt8)} {order : Order}

/-! ## Words -/

/-- A word as `token` finds one. -/
structure IsWord (word : List UInt8) : Prop where
  ne_nil : word ≠ []
  head : ∀ ch ∈ word.head?, isspace ch = false
  no_space : space ∉ word

instance (word : List UInt8) : Decidable (IsWord word) :=
  haveI : Decidable (∀ ch ∈ word.head?, isspace ch = false) := Option.decidableForallMem _
  decidable_of_iff (word ≠ [] ∧ (∀ ch ∈ word.head?, isspace ch = false) ∧ space ∉ word)
    ⟨fun h => ⟨h.1, h.2.1, h.2.2⟩, fun h => ⟨h.ne_nil, h.head, h.no_space⟩⟩

/-- The text has the words one after the other. After each one stands a space, or the text ends there; any
    white space may stand before it, and anything behind the last space. -/
inductive Spells : List (List UInt8) → List UInt8 → Prop where
  | nil (rest : List UInt8) : Spells [] rest
  | last {blanks : List UInt8} (word : List UInt8) : (∀ ch ∈ blanks, isspace ch) →
      Spells [word] (blanks ++ word)
  | cons {blanks rest : List UInt8} {words : List (List UInt8)} (word : List UInt8) :
      (∀ ch ∈ blanks, isspace ch) → Spells words rest →
      Spells (word :: words) (blanks ++ (word ++ space :: rest))

/-- White space is skipped up to a word. -/
theorem dropWhile_blanks {blanks : List UInt8} (hblanks : ∀ ch ∈ blanks, isspace ch) (hword : IsWord word)
    (rest : List UInt8) : (blanks ++ (word ++ rest)).dropWhile isspace = word ++ rest := by
  rw [List.dropWhile_append_of_pos hblanks]
  obtain ⟨ch, word, rfl⟩ := List.exists_cons_of_ne_nil hword.ne_nil
  rw [List.cons_append, List.dropWhile_cons_of_neg]
  rw [hword.head ch rfl]
  decide

theorem IsWord.all_ne (h : IsWord word) : ∀ ch ∈ word, decide (ch ≠ space) = true :=
  fun _ hch => decide_eq_true fun heq => h.no_space (heq ▸ hch)

theorem token_of_spells (hword : IsWord word) (h : Spells (word :: words) text) :
    (token text).1 = word ∧ Spells words (token text).2 := by
  unfold token
  cases h with
  | last _ hblanks =>
      have hskip := dropWhile_blanks hblanks hword []
      rw [List.append_nil] at hskip
      rw [hskip]
      exact ⟨List.takeWhile_eq_self_iff.2 hword.all_ne, .nil _⟩
  | cons _ hblanks hrest =>
      rw [dropWhile_blanks hblanks hword]
      dsimp only
      rw [List.takeWhile_append_of_pos hword.all_ne, List.dropWhile_append_of_pos hword.all_ne,
        List.takeWhile_cons_of_neg (by decide), List.dropWhile_cons_of_neg (by decide), List.append_nil]
      exact ⟨rfl, hrest⟩

/-! ## Numbers -/

/-- A number as it is written. -/
def number (value : Int32) : List UInt8 :=
  if value < 0 then minus :: decimal value.toInt.natAbs else decimal value.toInt.natAbs

theorem digit_isspace {d : ℕ} (h : d < 10) : isspace (digit d) = false ∧ digit d ≠ space := by
  revert d
  decide

theorem decimal_isWord (n : ℕ) : IsWord (decimal n) := by
  obtain ⟨d, rest, hd, hdecimal, -, -⟩ := decimal_head n
  refine ⟨?_, ?_, fun hmem => ?_⟩
  · rw [hdecimal]
    exact List.cons_ne_nil _ _
  · rw [hdecimal]
    rintro ch ⟨⟩
    exact (digit_isspace hd).1
  · obtain ⟨d, hd, heq⟩ := isDigitOf_decimal n space hmem
    exact (digit_isspace hd).2 heq.symm

theorem minus_decimal_isWord (n : ℕ) : IsWord (minus :: decimal n) := by
  refine ⟨List.cons_ne_nil _ _, ?_, fun hmem => ?_⟩
  · rintro ch ⟨⟩
    decide
  · rcases List.mem_cons.1 hmem with heq | hmem
    · exact absurd heq (by decide)
    · exact (decimal_isWord n).no_space hmem

theorem number_isWord (value : Int32) : IsWord (number value) := by
  unfold number
  split
  · exact minus_decimal_isWord _
  · exact decimal_isWord _

theorem IsWord.dropWhile_eq (h : IsWord word) : word.dropWhile isspace = word := by
  have hskip := dropWhile_blanks (List.forall_mem_nil _) h []
  rwa [List.nil_append, List.append_nil] at hskip

theorem stoi_minus_decimal {n : ℕ} (h : n ≤ 2147483648) :
    stoi (minus :: decimal n) = .ofInt (-(n : Int)) := by
  unfold stoi
  rw [(minus_decimal_isWord n).dropWhile_eq]
  simp only [if_true, readDigits_decimal]
  rw [if_pos (by omega)]

theorem stoi_decimal {n : ℕ} (h : n ≤ 2147483647) : stoi (decimal n) = .ofInt n := by
  obtain ⟨d, rest, hd, hdecimal, -, -⟩ := decimal_head n
  obtain ⟨-, -, hminus, hplus, -, -⟩ := digit_spec hd
  have hvalue := readDigits_decimal n
  have hskip := (decimal_isWord n).dropWhile_eq
  unfold stoi
  rw [hskip]
  rw [hdecimal] at hvalue ⊢
  simp only [hminus, hplus, if_false, hvalue]
  rw [if_pos (by omega)]

/-- A number is read back, whatever its sign. -/
theorem stoi_number (value : Int32) : stoi (number value) = value := by
  have hle := Int32.le_toInt value
  have hlt := Int32.toInt_lt value
  unfold number
  split
  · next hneg =>
      rw [Int32.lt_iff_toInt_lt, Int32.toInt_zero] at hneg
      have hvalue : -(value.toInt.natAbs : Int) = value.toInt := by omega
      rw [stoi_minus_decimal (by omega), hvalue, Int32.ofInt_toInt]
  · next hpos =>
      rw [Int32.lt_iff_toInt_lt, Int32.toInt_zero] at hpos
      have hvalue : (value.toInt.natAbs : Int) = value.toInt := by omega
      rw [stoi_decimal (by omega), hvalue, Int32.ofInt_toInt]

theorem intToken_of_spells {value : Int32} (h : Spells (number value :: words) text) :
    (intToken text).1 = value ∧ Spells words (intToken text).2 := by
  obtain ⟨hword, hrest⟩ := token_of_spells (number_isWord value) h
  refine ⟨?_, hrest⟩
  rw [← stoi_number value, ← hword]
  rfl

/-! ## Commands -/

def Order.command : Order → Command
  | get .. => .get
  | move2 .. => .move2
  | moveTo _ => .moveTo
  | online => .online
  | mob _ => .mob
  | expelParty _ => .expelParty
  | place p => .place p
  | getExp _ => .getExp
  | around _ => .around

/-- The arguments of a command as they are written. -/
def Order.arguments : Order → List (List UInt8)
  | get index num => [number index, number num]
  | move2 x y => [number x, number y]
  | moveTo name | expelParty name => [name]
  | online | place _ => []
  | mob value | getExp value | around value => [number value]

/-- The name that a command asks for. -/
def Order.receiver? : Order → Option (List UInt8)
  | moveTo name | expelParty name => some name
  | get .. | move2 .. | online | mob _ | place _ | getExp _ | around _ => none

theorem mem_commands (command : Command) : command ∈ commands := by
  cases command with
  | place p => cases p <;> decide
  | get | move2 | moveTo | online | mob | expelParty | getExp | around => decide

/-- The names of the commands are words, and no two of them are the same. -/
theorem name_spec (command : Command) :
    IsWord command.name ∧ commands.find? (·.name = command.name) = some command := by
  have hall : ∀ command ∈ commands,
      IsWord command.name ∧ commands.find? (·.name = command.name) = some command := by
    decide +kernel
  exact hall command (mem_commands command)

/-- A task reads the arguments of its command back. -/
theorem task_of_spells (hname : ∀ name ∈ order.receiver?, IsWord name)
    (h : Spells order.arguments text) : order.command.task text = order := by
  cases order with
  | get index num | move2 x y =>
      obtain ⟨hfirst, hrest⟩ := intToken_of_spells h
      obtain ⟨hsecond, -⟩ := intToken_of_spells hrest
      simp only [Order.command, Command.task, hfirst, hsecond]
  | mob value | getExp value | around value =>
      simp only [Order.command, Command.task, (intToken_of_spells h).1]
  | moveTo name | expelParty name =>
      simp only [Order.command, Command.task, (token_of_spells (hname name rfl) h).1]
  | online | place => rfl

/-- Whoever types a command, with white space between its arguments, has it executed with these arguments:
    numbers may be any that fit an `int`, and names any that have no space in them. -/
theorem onChatting_spelled (own : List UInt8) (hname : ∀ name ∈ order.receiver?, IsWord name)
    (hspells : Spells (order.command.name :: order.arguments) text) (hslash : text.head? = some slash) :
    onChatting own text = .command (some order) := by
  obtain ⟨hword, hfind⟩ := name_spec order.command
  obtain ⟨hlookup, hrest⟩ := token_of_spells hword hspells
  have hdispatch : dispatch text = some order := by
    unfold dispatch
    dsimp only
    rw [hlookup, hfind, Option.map_some, task_of_spells hname hrest]
  cases text with
  | nil => cases hslash
  | cons ch rest =>
      obtain rfl := Option.some.inj hslash
      rw [onChatting, if_pos rfl, hdispatch]

theorem onChatting_spelled_move2 :
    onChatting [] "/move2  -12 \t345 now".toUTF8.toList = .command (some (.move2 (-12) 345)) := by
  have hspells : Spells ((Order.move2 (-12) 345).command.name :: (Order.move2 (-12) 345).arguments)
      ([] ++ (Command.move2.name ++ space :: ([space] ++ (number (-12) ++ space ::
        ([tab] ++ (number 345 ++ space :: "now".toUTF8.toList)))))) :=
    .cons _ (List.forall_mem_nil _) (.cons _ (List.forall_mem_singleton.2 (by decide))
      (.cons _ (List.forall_mem_singleton.2 (by decide)) (.nil _)))
  have htext : [] ++ (Command.move2.name ++ space :: ([space] ++ (number (-12) ++ space ::
      ([tab] ++ (number 345 ++ space :: "now".toUTF8.toList))))) =
        "/move2  -12 \t345 now".toUTF8.toList := by
    have hminus : number (-12) = [45, 49, 50] := by simp [number, decimal, minus]
    have hplus : number 345 = [51, 52, 53] := by simp [number, decimal]
    rw [hminus, hplus]
    decide +kernel
  rw [htext] at hspells
  exact onChatting_spelled [] (by simp [Order.receiver?]) hspells (by decide +kernel)

end Bango.Chat
