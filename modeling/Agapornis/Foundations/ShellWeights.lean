import Agapornis.Foundations.ShellWords

namespace Agapornis
namespace Foundations

/-!
# How many characters a shell keeps

Reading a text drops characters and adds none but backslashes.  Counts of the
characters with some property bound therefore what can stand in the tokens.
-/

namespace Shell

/-- How many characters with a property a token consists of. -/
def Token.count (wanted : Char -> Bool) : Token -> Nat
  | .word symbols => (value symbols).countP wanted
  | .operator text => text.countP wanted

def countAll (wanted : Char -> Bool) (tokens : List Token) : Nat :=
  (tokens.map (Token.count wanted)).sum

variable {wanted : Char -> Bool}

theorem countAll_append (front back : List Token) :
    countAll wanted (front ++ back) = countAll wanted front + countAll wanted back := by
  rw [countAll, List.map_append, List.sum_append]
  rfl

theorem countAll_cons (token : Token) (tokens : List Token) :
    countAll wanted (token :: tokens) = token.count wanted + countAll wanted tokens :=
  rfl

theorem countAll_nil : countAll wanted [] = 0 :=
  rfl

@[simp] theorem count_quoted (text : Text) : (Token.word (quoted text)).count wanted = text.countP wanted := by
  rw [Token.count, value_quoted]

@[simp] theorem count_bare (text : Text) : (Token.word (bare text)).count wanted = text.countP wanted := by
  rw [Token.count, value_bare]

namespace Reader

/-- What is counted in the word or the operator that is being read. -/
def count (wanted : Char -> Bool) (reader : Reader) : Nat :=
  (value (reader.word.getD [])).countP wanted +
    match reader.mode with
    | .operator text => text.countP wanted
    | _ => 0

theorem count_ended (reader : Reader) :
    countAll wanted reader.ended = (value (reader.word.getD [])).countP wanted := by
  cases reader with
  | mk mode word => cases word <;> rfl

theorem count_bareStep (reader : Reader) (character : Char) :
    countAll wanted (reader.bareStep character).1 + (reader.bareStep character).2.count wanted ≤
      (value (reader.word.getD [])).countP wanted + [character].countP wanted := by
  rw [bareStep]
  split_ifs <;> simp [count, push, fresh, countAll_nil, count_ended, value]

/-- One character adds at most itself, where backslashes are not counted. -/
theorem count_step (plain : wanted '\\' = false) (reader : Reader) (character : Char) :
    countAll wanted (reader.step character).1 + (reader.step character).2.count wanted ≤
      reader.count wanted + [character].countP wanted := by
  rcases reader with ⟨mode, word⟩
  cases mode with
  | bare => exact count_bareStep ⟨.bare, word⟩ character
  | escaped =>
      rw [step]
      dsimp only
      split_ifs <;> simp [count, push, countAll_nil, value]
  | single =>
      rw [step]
      dsimp only
      split_ifs <;> simp [count, push, countAll_nil, value]
  | double =>
      rw [step]
      dsimp only
      split_ifs <;> simp [count, push, countAll_nil, value]
  | doubleEscaped =>
      rw [step]
      dsimp only
      split_ifs <;> simp [count, push, countAll_nil, value, plain]
  | operator text =>
      rw [step]
      dsimp only
      split_ifs
      · simp only [count, countAll_nil, List.countP_append, Option.getD_none, value, List.map_nil,
          List.countP_nil]
        omega
      · have later := @count_bareStep wanted fresh character
        have empty : (value (fresh.word.getD [])).countP wanted = 0 := rfl
        rw [empty, Nat.zero_add] at later
        have pending : (Reader.mk (.operator text) word).count wanted =
            (value (word.getD [])).countP wanted + text.countP wanted := rfl
        have emitted : (Token.operator text).count wanted = text.countP wanted := rfl
        rw [countAll_cons, pending, emitted]
        dsimp only
        omega
  | comment =>
      rw [step]
      dsimp only
      split_ifs <;> simp_all [count, countAll_nil, value]
  | expansion => simp [step, countAll_nil]

theorem count_read (plain : wanted '\\' = false) (text : Text) : forall reader : Reader,
    countAll wanted (reader.read text).1 + (reader.read text).2.count wanted ≤
      reader.count wanted + text.countP wanted := by
  induction text with
  | nil =>
      intro reader
      rw [read]
      exact Nat.le_of_eq (Nat.zero_add _)
  | cons character rest induction =>
      intro reader
      have one := count_step plain reader character
      have later := induction (reader.step character).2
      rw [read, countAll_append, ← List.singleton_append, List.countP_append]
      dsimp only
      omega

/-- The tokens hold no more than the text and what has been read before. -/
theorem count_lexFrom (plain : wanted '\\' = false) {reader : Reader} {text : Text} {tokens : List Token}
    (found : reader.lexFrom text = some tokens) :
    countAll wanted tokens ≤ reader.count wanted + text.countP wanted := by
  rcases Option.map_eq_some_iff.mp found with ⟨last, ends, rfl⟩
  have bound := count_read plain text reader
  have final : countAll wanted last ≤ (reader.read text).2.count wanted := by
    revert ends
    rcases (reader.read text).2 with ⟨mode, word⟩
    cases mode with
    | bare =>
        rintro ⟨⟩
        rw [count_ended]
        exact Nat.le_add_right _ _
    | operator operator =>
        rintro ⟨⟩
        exact Nat.le_add_left _ _
    | comment =>
        rintro ⟨⟩
        exact Nat.zero_le _
    | escaped => rintro ⟨⟩
    | single => rintro ⟨⟩
    | double => rintro ⟨⟩
    | doubleEscaped => rintro ⟨⟩
    | expansion => rintro ⟨⟩
  rw [countAll_append]
  omega

theorem lexFrom_cons (reader : Reader) (character : Char) (rest : Text) :
    reader.lexFrom (character :: rest) =
      ((reader.step character).2.lexFrom rest).map ((reader.step character).1 ++ ·) := by
  have one := lexFrom_append [character] rest reader
  simpa [read] using one

theorem read_expansion (word : Option (List Symbol)) (text : Text) :
    (Reader.mk .expansion word).read text = ([], ⟨.expansion, word⟩) := by
  induction text with
  | nil => rfl
  | cons character rest induction =>
      rw [read, step]
      dsimp only
      rw [induction]
      rfl

theorem lexFrom_expansion (word : Option (List Symbol)) (text : Text) :
    (Reader.mk .expansion word).lexFrom text = none := by
  rw [lexFrom, read_expansion]
  rfl

/-- A text from which no token is read yet leaves a reader from which the rest is read. -/
theorem lexFrom_of_read {reader after : Reader} {front : Text} (same : reader.read front = ([], after))
    (back : Text) : reader.lexFrom (front ++ back) = after.lexFrom back := by
  rw [lexFrom_append, same]
  cases after.lexFrom back <;> rfl

/-! ## The word that is being read -/

/-- A reader in the middle of a word. -/
structure Within (reader : Reader) (symbols : List Symbol) : Prop where
  word : reader.word = some symbols
  operator : forall text, reader.mode ≠ .operator text
  comment : reader.mode ≠ .comment

theorem within_kept {symbols : List Symbol} {mode : Mode} (noOperator : forall text, mode ≠ .operator text)
    (noComment : mode ≠ .comment) : Within ⟨mode, some symbols⟩ (symbols ++ []) := by
  rw [List.append_nil]
  exact ⟨rfl, noOperator, noComment⟩

theorem within_push {symbols : List Symbol} {before mode : Mode} (more : List Symbol)
    (noOperator : forall text, mode ≠ .operator text) (noComment : mode ≠ .comment) :
    Within (push ⟨before, some symbols⟩ mode more) (symbols ++ more) :=
  ⟨rfl, noOperator, noComment⟩

/-- Either the word ends here, or it goes on. -/
theorem within_step {reader : Reader} {symbols : List Symbol} (within : reader.Within symbols)
    (character : Char) :
    (Exists fun rest => (reader.step character).1 = .word symbols :: rest) \/
      ((reader.step character).1 = [] /\ Exists fun more =>
        (reader.step character).2.Within (symbols ++ more)) := by
  rcases reader with ⟨mode, word⟩
  rcases within with ⟨rfl, noOperator, noComment⟩
  cases mode with
  | operator text => exact absurd rfl (noOperator text)
  | comment => exact absurd rfl noComment
  | bare =>
      have notComment : (decide (character = '#') && (some symbols).isNone) = false := Bool.and_false _
      rw [step, bareStep]
      dsimp only
      rw [notComment, if_neg Bool.false_ne_true]
      split_ifs
      · exact .inr ⟨rfl, _, within_kept (fun _ same => by cases same) (fun same => by cases same)⟩
      · exact .inr ⟨rfl, _, within_push [] (fun _ same => by cases same) (fun same => by cases same)⟩
      · exact .inr ⟨rfl, _, within_push [] (fun _ same => by cases same) (fun same => by cases same)⟩
      · exact .inr ⟨rfl, _, within_kept (fun _ same => by cases same) (fun same => by cases same)⟩
      · exact .inl ⟨[], rfl⟩
      · exact .inl ⟨[], rfl⟩
      · exact .inr ⟨rfl, _, within_push _ (fun _ same => by cases same) (fun same => by cases same)⟩
  | escaped =>
      rw [step]
      dsimp only
      split_ifs
      · exact .inr ⟨rfl, _, within_kept (fun _ same => by cases same) (fun same => by cases same)⟩
      · exact .inr ⟨rfl, _, within_push _ (fun _ same => by cases same) (fun same => by cases same)⟩
  | single =>
      rw [step]
      dsimp only
      split_ifs
      · exact .inr ⟨rfl, _, within_kept (fun _ same => by cases same) (fun same => by cases same)⟩
      · exact .inr ⟨rfl, _, within_push _ (fun _ same => by cases same) (fun same => by cases same)⟩
  | double =>
      rw [step]
      dsimp only
      split_ifs
      · exact .inr ⟨rfl, _, within_kept (fun _ same => by cases same) (fun same => by cases same)⟩
      · exact .inr ⟨rfl, _, within_kept (fun _ same => by cases same) (fun same => by cases same)⟩
      · exact .inr ⟨rfl, _, within_kept (fun _ same => by cases same) (fun same => by cases same)⟩
      · exact .inr ⟨rfl, _, within_push _ (fun _ same => by cases same) (fun same => by cases same)⟩
  | doubleEscaped =>
      rw [step]
      dsimp only
      split_ifs
      · exact .inr ⟨rfl, _, within_kept (fun _ same => by cases same) (fun same => by cases same)⟩
      · exact .inr ⟨rfl, _, within_push _ (fun _ same => by cases same) (fun same => by cases same)⟩
      · exact .inr ⟨rfl, _, within_push _ (fun _ same => by cases same) (fun same => by cases same)⟩
  | expansion => exact .inr ⟨rfl, _, within_kept (fun _ same => by cases same) (fun same => by cases same)⟩

/-- The first token which is read in the middle of a word goes on with that word. -/
theorem lexFrom_within {text : Text} : forall {reader : Reader} {symbols : List Symbol} {tokens : List Token},
    reader.Within symbols -> reader.lexFrom text = some tokens ->
      Exists fun more => Exists fun rest => tokens = .word (symbols ++ more) :: rest := by
  induction text with
  | nil =>
      intro reader symbols tokens within found
      rcases reader with ⟨mode, word⟩
      rcases within with ⟨rfl, noOperator, noComment⟩
      cases mode with
      | bare =>
          cases found
          exact ⟨[], [], by rw [List.append_nil]; rfl⟩
      | operator text => exact absurd rfl (noOperator text)
      | comment => exact absurd rfl noComment
      | escaped => cases found
      | single => cases found
      | double => cases found
      | doubleEscaped => cases found
      | expansion => cases found
  | cons character rest induction =>
      intro reader symbols tokens within found
      rw [lexFrom_cons] at found
      rcases Option.map_eq_some_iff.mp found with ⟨later, others, rfl⟩
      rcases within_step within character with ⟨emitted, ends⟩ | ⟨nothing, more, goes⟩
      · rw [ends]
        exact ⟨[], emitted ++ later, by rw [List.append_nil]; rfl⟩
      · rcases induction goes others with ⟨further, tail, rfl⟩
        rw [nothing]
        exact ⟨more ++ further, tail, by rw [List.append_assoc]; rfl⟩

end Reader

/-! ## Quoting and putting together -/

/-- Quoting adds only quotes and backslashes. -/
theorem count_enclosed (noQuote : wanted singleQuote = false) (plain : wanted '\\' = false) (text : Text) :
    (enclosed text).countP wanted = text.countP wanted := by
  induction text with
  | nil => rfl
  | cons character rest induction =>
      rw [enclosed, List.flatMap_cons, List.countP_append, ← enclosed, induction, List.countP_cons, Nat.add_comm]
      congr 1
      split_ifs with isQuote counted
      · rw [isQuote, noQuote] at counted
        cases counted
      · simp [noQuote, plain]
      · next counted => simp [counted]
      · next counted => simp [counted]

theorem count_quote (noQuote : wanted singleQuote = false) (plain : wanted '\\' = false) (text : Text) :
    (quote text).countP wanted = text.countP wanted := by
  rw [quote, List.countP_cons, List.countP_append, count_enclosed noQuote plain, noQuote]
  simp [noQuote]

/-- All characters of the text are in the tokens, but for quotes, backslashes and blanks. -/
def Kept (text : Text) (tokens : List Token) : Prop :=
  forall wanted : Char -> Bool, wanted singleQuote = false -> wanted '\\' = false -> wanted ' ' = false ->
    countAll wanted tokens = text.countP wanted

theorem kept_bare (text : Text) : Kept text [.word (bare text)] := by
  intro wanted _ _ _
  rw [countAll_cons, countAll_nil, count_bare, Nat.add_zero]

theorem kept_quote (text : Text) : Kept (quote text) [.word (quoted text)] := by
  intro wanted noQuote plain _
  rw [countAll_cons, countAll_nil, count_quoted, count_quote noQuote plain, Nat.add_zero]

theorem kept_blank {first second : Text} {front back : List Token} (one : Kept first front)
    (other : Kept second back) : Kept (first ++ ' ' :: second) (front ++ back) := by
  intro wanted noQuote plain noBlank
  rw [countAll_append, one wanted noQuote plain noBlank, other wanted noQuote plain noBlank,
    List.countP_append, List.countP_cons, noBlank]
  rfl

theorem kept_semicolon {first second : Text} {front back : List Token} (one : Kept first front)
    (other : Kept second back) :
    Kept (first ++ ("; ".toList ++ second)) (front ++ .operator ";".toList :: back) := by
  intro wanted noQuote plain noBlank
  have semicolon : "; ".toList.countP wanted = (Token.operator ";".toList).count wanted := by
    have text : "; ".toList = [';', ' '] := by decide
    have operator : (Token.operator ";".toList).count wanted = [';'].countP wanted := rfl
    rw [text, operator, List.countP_cons, List.countP_cons, List.countP_cons, noBlank]
    simp
  rw [countAll_append, countAll_cons, one wanted noQuote plain noBlank,
    other wanted noQuote plain noBlank, List.countP_append, List.countP_append, semicolon]

theorem kept_quotes (texts : List Text) : Kept (" ".toList.intercalate (texts.map quote))
    (texts.map (fun text => .word (quoted text))) := by
  induction texts with
  | nil => exact fun _ _ _ _ => rfl
  | cons text rest induction =>
      cases rest with
      | nil =>
          rw [List.map_singleton, List.intercalate_singleton]
          exact kept_quote text
      | cons next rest =>
          rw [List.map_cons, List.map_cons, List.intercalate_cons_cons, List.append_assoc]
          exact kept_blank (kept_quote text) induction

/-! ## Reading on -/

theorem lex_of_read {first middle : Text} {front between : List Token} {word : Option (List Symbol)}
    (same : Reader.fresh.read first = (front, ⟨.bare, word⟩))
    (ends : (Reader.mk .bare word).read middle = ((Reader.mk .bare word).ended ++ between, .fresh))
    (second : Text) : lex (first ++ (middle ++ second)) =
      (lex second).map (front ++ (Reader.mk .bare word).ended ++ between ++ ·) := by
  rw [lex, Reader.lexFrom_append, same, Reader.lexFrom_append, ends, Option.map_map]
  congr 1
  funext tokens
  simp

/-- Behind a blank a text is read from the beginning. -/
theorem lex_blank {first : Text} {front : List Token} (one : reads first = some front) (second : Text) :
    lex (first ++ ' ' :: second) = (lex second).map (front ++ ·) := by
  rcases reads_eq_some.mp one with ⟨early, word, same, rfl⟩
  have ends : (Reader.mk .bare word).read [' '] = ((Reader.mk .bare word).ended ++ [], .fresh) := rfl
  have both := lex_of_read same ends second
  rw [List.append_nil] at both
  exact both

theorem lex_semicolon {first : Text} {front : List Token} (one : reads first = some front) (second : Text) :
    lex (first ++ ("; ".toList ++ second)) = (lex second).map (front ++ [.operator ";".toList] ++ ·) := by
  rcases reads_eq_some.mp one with ⟨early, word, same, rfl⟩
  have ends : (Reader.mk .bare word).read "; ".toList =
      ((Reader.mk .bare word).ended ++ [.operator ";".toList], .fresh) := rfl
  exact lex_of_read same ends second

end Shell

end Foundations
end Agapornis
