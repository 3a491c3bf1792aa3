import Agapornis.Foundations.Text

namespace Agapornis
namespace Foundations

/-!
# The words of a shell command

A command text is read character by character.  Quotes and backslashes take
away the meaning of the characters behind them and are themselves dropped;
blanks and operators end a word.  What stands in a word is kept with a mark
whether it was quoted, since pathname patterns and the tilde have a meaning
only where they were not.  Expansions are not read: a dollar sign or a
backtick that is not quoted leads to no result.
-/

namespace Shell

structure Symbol where
  character : Char
  quoted : Bool
  deriving DecidableEq, Repr

inductive Token where
  | word (symbols : List Symbol)
  | operator (text : Text)
  deriving DecidableEq, Repr

def quoted (text : Text) : List Symbol :=
  text.map (fun character => ⟨character, true⟩)

def bare (text : Text) : List Symbol :=
  text.map (fun character => ⟨character, false⟩)

/-- The text of a word once its quotes are removed. -/
def value (symbols : List Symbol) : Text :=
  symbols.map Symbol.character

@[simp] theorem value_quoted (text : Text) : value (quoted text) = text := by
  simp [value, quoted, Function.comp_def]

@[simp] theorem value_bare (text : Text) : value (bare text) = text := by
  simp [value, bare, Function.comp_def]

theorem value_append (front back : List Symbol) : value (front ++ back) = value front ++ value back :=
  List.map_append

def singleQuote : Char := Char.ofNat 39
def doubleQuote : Char := Char.ofNat 34
def backtick : Char := Char.ofNat 96

def operators : List Text :=
  ["&", "|", ";", "<", ">", "(", ")", "\n", "&&", "||", ";;", "<<", ">>", "<&", ">&", "<>", ">|",
    "<<-"].map String.toList

def isOperator (text : Text) : Bool :=
  operators.contains text

/-- How the next character is to be taken. -/
inductive Mode where
  | bare
  | escaped
  | single
  | double
  | doubleEscaped
  /-- An operator that may go on. -/
  | operator (text : Text)
  | comment
  | expansion
  deriving DecidableEq, Repr

/-- The mode, and the word that is being read. -/
structure Reader where
  mode : Mode
  word : Option (List Symbol)
  deriving DecidableEq, Repr

namespace Reader

/-- Between two tokens. -/
def fresh : Reader := ⟨.bare, none⟩

def push (reader : Reader) (mode : Mode) (symbols : List Symbol) : Reader :=
  ⟨mode, some (reader.word.getD [] ++ symbols)⟩

/-- The token which ends here. -/
def ended (reader : Reader) : List Token :=
  reader.word.toList.map .word

/-- A character that no quotes stand around. -/
def bareStep (reader : Reader) (character : Char) : List Token × Reader :=
  if character = '\\' then ([], ⟨.escaped, reader.word⟩)
  else if character = singleQuote then ([], reader.push .single [])
  else if character = doubleQuote then ([], reader.push .double [])
  else if character = '$' || character = backtick then ([], ⟨.expansion, reader.word⟩)
  else if character = ' ' || character = '\t' then (reader.ended, fresh)
  else if character = '#' && reader.word.isNone then ([], ⟨.comment, none⟩)
  else if isOperator [character] then (reader.ended, ⟨.operator [character], none⟩)
  else ([], reader.push .bare [⟨character, false⟩])

def step (reader : Reader) (character : Char) : List Token × Reader :=
  match reader.mode with
  | .bare => reader.bareStep character
  | .escaped =>
      if character = '\n' then ([], ⟨.bare, reader.word⟩) else ([], reader.push .bare [⟨character, true⟩])
  | .single =>
      if character = singleQuote then ([], ⟨.bare, reader.word⟩)
      else ([], reader.push .single [⟨character, true⟩])
  | .double =>
      if character = doubleQuote then ([], ⟨.bare, reader.word⟩)
      else if character = '\\' then ([], ⟨.doubleEscaped, reader.word⟩)
      else if character = '$' || character = backtick then ([], ⟨.expansion, reader.word⟩)
      else ([], reader.push .double [⟨character, true⟩])
  | .doubleEscaped =>
      if character = '\n' then ([], ⟨.double, reader.word⟩)
      else if character = '$' || character = backtick || character = doubleQuote || character = '\\' then
        ([], reader.push .double [⟨character, true⟩])
      else ([], reader.push .double [⟨'\\', true⟩, ⟨character, true⟩])
  | .operator text =>
      if isOperator (text ++ [character]) then ([], ⟨.operator (text ++ [character]), none⟩)
      else (.operator text :: (fresh.bareStep character).1, (fresh.bareStep character).2)
  | .comment => if character = '\n' then ([], ⟨.operator ['\n'], none⟩) else ([], reader)
  | .expansion => ([], reader)

/-- The tokens that are read from a text, and the reader behind it. -/
def read : Reader -> Text -> List Token × Reader
  | reader, [] => ([], reader)
  | reader, character :: rest =>
      let first := reader.step character
      (first.1 ++ (read first.2 rest).1, (read first.2 rest).2)

/-- The last token, if the text may end here. -/
def finish (reader : Reader) : Option (List Token) :=
  match reader.mode with
  | .bare => some reader.ended
  | .operator text => some [.operator text]
  | .comment => some []
  | _ => none

theorem read_append (front back : Text) : forall reader : Reader, reader.read (front ++ back) =
    ((reader.read front).1 ++ ((reader.read front).2.read back).1, ((reader.read front).2.read back).2) := by
  induction front with
  | nil => exact fun _ => rfl
  | cons character rest induction =>
      intro reader
      rw [List.cons_append, read, induction, read, List.append_assoc]

/-- The tokens of a text from a reader on, when the text may end there. -/
def lexFrom (reader : Reader) (text : Text) : Option (List Token) :=
  (reader.read text).2.finish.map ((reader.read text).1 ++ ·)

theorem lexFrom_append (front back : Text) (reader : Reader) :
    reader.lexFrom (front ++ back) =
      ((reader.read front).2.lexFrom back).map ((reader.read front).1 ++ ·) := by
  rw [lexFrom, lexFrom, read_append, Option.map_map]
  congr 1
  funext tokens
  exact List.append_assoc _ _ _

end Reader

/-- The tokens of a command text. -/
def lex (text : Text) : Option (List Token) :=
  Reader.fresh.lexFrom text

example : lex "[ ! -e 'a b' ] || exit 45; mv -- it\\'s 'a b'/*".toList =
    some [.word (bare "[".toList), .word (bare "!".toList), .word (bare "-e".toList),
      .word (quoted "a b".toList), .word (bare "]".toList), .operator "||".toList,
      .word (bare "exit".toList), .word (bare "45".toList), .operator ";".toList,
      .word (bare "mv".toList), .word (bare "--".toList),
      .word (bare "it".toList ++ quoted [singleQuote] ++ bare ['s']),
      .word (quoted "a b".toList ++ bare "/*".toList)] := by
  decide +kernel

/-! ## Putting commands together -/

/-- The tokens of a text that ends with a word or between two tokens. -/
def reads (text : Text) : Option (List Token) :=
  match Reader.fresh.read text with
  | (tokens, ⟨.bare, word⟩) => some (tokens ++ (Reader.mk .bare word).ended)
  | _ => none

theorem reads_eq_some {text : Text} {tokens : List Token} :
    reads text = some tokens <-> Exists fun front => Exists fun word =>
      Reader.fresh.read text = (front, ⟨.bare, word⟩) /\ tokens = front ++ (Reader.mk .bare word).ended := by
  rw [reads]
  constructor
  · intro found
    split at found
    · next front word same => exact ⟨front, word, same, (Option.some.inj found).symm⟩
    · cases found
  · rintro ⟨front, word, same, rfl⟩
    rw [same]

theorem lex_of_reads {text : Text} {tokens : List Token} (found : reads text = some tokens) :
    lex text = some tokens := by
  rcases reads_eq_some.mp found with ⟨front, word, same, rfl⟩
  rw [lex, Reader.lexFrom, same]
  rfl

/-- Two commands with a blank between them. -/
theorem reads_blank {first second : Text} {front back : List Token} (one : reads first = some front)
    (other : reads second = some back) : reads (first ++ ' ' :: second) = some (front ++ back) := by
  rcases reads_eq_some.mp one with ⟨early, word, same, rfl⟩
  rcases reads_eq_some.mp other with ⟨late, last, more, rfl⟩
  apply reads_eq_some.mpr
  refine ⟨early ++ ((Reader.mk .bare word).ended ++ late), last, ?_, by simp⟩
  have blank : (Reader.mk .bare word).read (' ' :: second) =
      ((Reader.mk .bare word).ended ++ (Reader.fresh.read second).1, (Reader.fresh.read second).2) := rfl
  rw [Reader.read_append, same]
  dsimp only
  rw [blank, more]

/-- An operator with a blank behind it between two commands. -/
theorem reads_operator {character : Char} {more : Text}
    (begins : forall reader : Reader, reader.bareStep character =
      (reader.ended, ⟨.operator [character], none⟩))
    (goes : (Reader.mk (.operator [character]) none).read more =
      ([], ⟨.operator (character :: more), none⟩))
    (stops : isOperator (character :: more ++ [' ']) = false) {first second : Text}
    {front back : List Token} (one : reads first = some front) (other : reads second = some back) :
    reads (first ++ (character :: more ++ ' ' :: second)) =
      some (front ++ .operator (character :: more) :: back) := by
  rcases reads_eq_some.mp one with ⟨early, word, same, rfl⟩
  rcases reads_eq_some.mp other with ⟨late, last, later, rfl⟩
  apply reads_eq_some.mpr
  refine ⟨early ++ ((Reader.mk .bare word).ended ++ (.operator (character :: more) :: late)), last, ?_,
    by simp⟩
  have opened : (Reader.mk .bare word).step character =
      ((Reader.mk .bare word).ended, ⟨.operator [character], none⟩) := begins ⟨.bare, word⟩
  have ends : (Reader.mk (.operator (character :: more)) none).read (' ' :: second) =
      (.operator (character :: more) :: (Reader.fresh.read second).1, (Reader.fresh.read second).2) := by
    rw [Reader.read, Reader.step]
    dsimp only
    rw [if_neg (by rw [stops]; exact Bool.false_ne_true)]
    rfl
  rw [Reader.read_append, same, List.cons_append]
  dsimp only
  rw [Reader.read, opened]
  dsimp only
  rw [Reader.read_append, goes]
  dsimp only
  rw [ends, later]
  simp

theorem reads_semicolon {first second : Text} {front back : List Token}
    (one : reads first = some front) (other : reads second = some back) :
    reads (first ++ ("; ".toList ++ second)) = some (front ++ .operator ";".toList :: back) :=
  @reads_operator ';' [] (fun _ => rfl) rfl (by decide) _ _ _ _ one other

/-- An operator with blanks on both sides. -/
theorem reads_spaced {character : Char} {more : Text}
    (begins : forall reader : Reader, reader.bareStep character =
      (reader.ended, ⟨.operator [character], none⟩))
    (goes : (Reader.mk (.operator [character]) none).read more =
      ([], ⟨.operator (character :: more), none⟩))
    (stops : isOperator (character :: more ++ [' ']) = false) {first second : Text}
    {front back : List Token} (one : reads first = some front) (other : reads second = some back) :
    reads (first ++ ' ' :: (character :: more ++ ' ' :: second)) =
      some (front ++ .operator (character :: more) :: back) := by
  have blank : reads (first ++ ' ' :: []) = some (front ++ []) :=
    reads_blank one (show reads [] = some [] from rfl)
  rw [List.append_nil] at blank
  have both := reads_operator begins goes stops blank other
  rw [List.append_assoc] at both
  exact both

theorem reads_or {first second : Text} {front back : List Token}
    (one : reads first = some front) (other : reads second = some back) :
    reads (first ++ (" || ".toList ++ second)) = some (front ++ .operator "||".toList :: back) :=
  @reads_spaced '|' ['|'] (fun _ => rfl) rfl (by decide) _ _ _ _ one other

theorem reads_and {first second : Text} {front back : List Token}
    (one : reads first = some front) (other : reads second = some back) :
    reads (first ++ (" && ".toList ++ second)) = some (front ++ .operator "&&".toList :: back) :=
  @reads_spaced '&' ['&'] (fun _ => rfl) rfl (by decide) _ _ _ _ one other

theorem reads_bar {first second : Text} {front back : List Token}
    (one : reads first = some front) (other : reads second = some back) :
    reads (first ++ (" | ".toList ++ second)) = some (front ++ .operator "|".toList :: back) :=
  @reads_spaced '|' [] (fun _ => rfl) rfl (by decide) _ _ _ _ one other

theorem reads_into {first second : Text} {front back : List Token}
    (one : reads first = some front) (other : reads second = some back) :
    reads (first ++ (" > ".toList ++ second)) = some (front ++ .operator ">".toList :: back) :=
  @reads_spaced '>' [] (fun _ => rfl) rfl (by decide) _ _ _ _ one other

/-! ## Quoting a text -/

/-- What stands between the quotes; a single quote is written outside of them. -/
def enclosed (text : Text) : Text :=
  text.flatMap (fun character =>
    if character = singleQuote then [singleQuote, '\\', singleQuote, singleQuote] else [character])

/-- A text in single quotes. -/
def quote (text : Text) : Text :=
  singleQuote :: (enclosed text ++ [singleQuote])

theorem enclosed_append (front back : Text) : enclosed (front ++ back) = enclosed front ++ enclosed back :=
  List.flatMap_append

theorem enclosed_cons {character : Char} (notSingle : character ≠ singleQuote) (rest : Text) :
    enclosed (character :: rest) = character :: enclosed rest := by
  rw [enclosed, List.flatMap_cons, if_neg notSingle]
  rfl

theorem enclosed_of_not_mem {text : Text} (noQuote : singleQuote ∉ text) : enclosed text = text := by
  induction text with
  | nil => rfl
  | cons character rest induction =>
      rw [List.mem_cons, not_or] at noQuote
      rw [enclosed_cons (fun isQuote => noQuote.1 isQuote.symm), induction noQuote.2]

/-- What stands between the quotes goes on where it is read inside of them. -/
theorem read_enclosed (text : Text) : forall symbols : List Symbol,
    (Reader.mk .single (some symbols)).read (enclosed text) =
      ([], ⟨.single, some (symbols ++ quoted text)⟩) := by
  induction text with
  | nil =>
      intro symbols
      rw [enclosed, List.flatMap_nil, Reader.read, quoted, List.map_nil, List.append_nil]
  | cons character rest induction =>
      intro symbols
      have one : (Reader.mk .single (some symbols)).read
          (if character = singleQuote then [singleQuote, '\\', singleQuote, singleQuote] else [character]) =
          ([], ⟨.single, some (symbols ++ [⟨character, true⟩])⟩) := by
        by_cases isQuote : character = singleQuote
        · rw [if_pos isQuote, isQuote]
          simp [Reader.read, Reader.step, Reader.bareStep, Reader.push, singleQuote]
        · rw [if_neg isQuote, Reader.read, Reader.step]
          dsimp only
          rw [if_neg isQuote]
          rfl
      rw [enclosed, List.flatMap_cons, Reader.read_append, one]
      dsimp only
      rw [← enclosed, induction, List.append_assoc]
      rfl

/-- A quoted text adds itself to the word, whatever it consists of. -/
theorem read_quote (text : Text) (word : Option (List Symbol)) :
    (Reader.mk .bare word).read (quote text) = ([], ⟨.bare, some (word.getD [] ++ quoted text)⟩) := by
  have opened : (Reader.mk .bare word).step singleQuote = ([], ⟨.single, some (word.getD [])⟩) := by
    simp [Reader.step, Reader.bareStep, Reader.push, singleQuote]
  have closed (symbols : List Symbol) :
      (Reader.mk .single (some symbols)).read [singleQuote] = ([], ⟨.bare, some symbols⟩) := by
    simp [Reader.read, Reader.step]
  rw [quote, Reader.read, opened]
  dsimp only
  rw [Reader.read_append, read_enclosed]
  dsimp only
  rw [closed]
  rfl

theorem reads_quote (text : Text) : reads (quote text) = some [.word (quoted text)] :=
  reads_eq_some.mpr ⟨[], _, read_quote text none, rfl⟩

/-! ## Characters that stand for themselves -/

/-- A character that keeps its place in a word without quotes. -/
def ordinary (character : Char) : Bool :=
  !(character = '\\' || character = singleQuote || character = doubleQuote || character = '$' ||
    character = backtick || character = ' ' || character = '\t' || isOperator [character])

theorem bareStep_ordinary {character : Char} (isOrdinary : ordinary character = true) {reader : Reader}
    (goesOn : character = '#' -> reader.word ≠ none) :
    reader.bareStep character = ([], reader.push .bare [⟨character, false⟩]) := by
  simp only [ordinary, Bool.not_eq_true', Bool.or_eq_false_iff, decide_eq_false_iff_not] at isOrdinary
  rcases isOrdinary with ⟨⟨⟨⟨⟨⟨⟨notEscape, notSingle⟩, notDouble⟩, notDollar⟩, notTick⟩, notBlank⟩, notTab⟩,
    notOperator⟩
  have notComment : (decide (character = '#') && reader.word.isNone) = false := by
    by_cases isHash : character = '#'
    · rw [Bool.and_eq_false_iff]
      right
      cases same : reader.word with
      | none => exact absurd same (goesOn isHash)
      | some word => rfl
    · rw [decide_eq_false isHash, Bool.false_and]
  simp [Reader.bareStep, notEscape, notSingle, notDouble, notDollar, notTick, notBlank, notTab, notOperator,
    notComment]

theorem not_ordinary {character : Char} (special : ordinary character = false) :
    character = '\\' \/ character = singleQuote \/ character = doubleQuote \/
      (character = '$' \/ character = backtick) \/ (character = ' ' \/ character = '\t') \/
      isOperator [character] = true := by
  simp only [ordinary, Bool.not_eq_false', Bool.or_eq_true, decide_eq_true_eq] at special
  tauto

theorem mem_of_isOperator {character : Char} (operator : isOperator [character] = true) :
    character ∈ ['&', '|', ';', '<', '>', '(', ')', '\n'] := by
  simpa [isOperator, operators] using operator

theorem ordinary_of_isAlphanum {character : Char} (isAlphanum : character.isAlphanum = true) :
    ordinary character = true := by
  by_contra special
  have others : forall other : Char, other.isAlphanum = false -> character ≠ other := by
    rintro other not rfl
    rw [isAlphanum] at not
    cases not
  rcases not_ordinary (Bool.of_not_eq_true special) with same | same | same | (same | same) | (same | same) |
    operator
  · exact others _ (by decide) same
  · exact others _ (by decide) same
  · exact others _ (by decide) same
  · exact others _ (by decide) same
  · exact others _ (by decide) same
  · exact others _ (by decide) same
  · exact others _ (by decide) same
  · have inside := mem_of_isOperator operator
    have none : ['&', '|', ';', '<', '>', '(', ')', '\n'].all (fun other => !other.isAlphanum) = true := by
      decide
    have notAlphanum := List.all_eq_true.mp none character inside
    rw [isAlphanum] at notAlphanum
    cases notAlphanum

/-- What a special character does to a word that has begun; a backslash and a single quote are left
out here. -/
theorem bareStep_special {character : Char} (special : ordinary character = false)
    (notEscape : character ≠ '\\') (notSingle : character ≠ singleQuote) (symbols : List Symbol) :
    (character = doubleQuote /\
        (Reader.mk .bare (some symbols)).bareStep character = ([], ⟨.double, some (symbols ++ [])⟩)) \/
      (Reader.mk .bare (some symbols)).bareStep character = ([], ⟨.expansion, some symbols⟩) \/
      ((Reader.mk .bare (some symbols)).bareStep character).1 = [.word symbols] := by
  have doubles : doubleQuote ≠ '\\' /\ doubleQuote ≠ singleQuote := by decide
  rcases not_ordinary special with isEscape | isSingle | rfl | dollar | blank | operator
  · exact absurd isEscape notEscape
  · exact absurd isSingle notSingle
  · left
    refine ⟨rfl, ?_⟩
    rw [Reader.bareStep, if_neg doubles.1, if_neg doubles.2, if_pos rfl]
    rfl
  · right
    left
    rcases dollar with rfl | rfl <;> rfl
  · right
    right
    rcases blank with rfl | rfl <;> rfl
  · right
    right
    have inside := mem_of_isOperator operator
    simp only [List.mem_cons, List.not_mem_nil, or_false] at inside
    rcases inside with rfl | rfl | rfl | rfl | rfl | rfl | rfl | rfl <;> rfl

/-- Ordinary characters add themselves to a word that has begun. -/
theorem read_ordinary {text : Text} (isOrdinary : forall character, character ∈ text -> ordinary character = true) :
    forall symbols : List Symbol, (Reader.mk .bare (some symbols)).read text =
      ([], ⟨.bare, some (symbols ++ bare text)⟩) := by
  induction text with
  | nil =>
      intro symbols
      rw [Reader.read, bare, List.map_nil, List.append_nil]
  | cons character rest induction =>
      intro symbols
      rw [List.forall_mem_cons] at isOrdinary
      have one : (Reader.mk .bare (some symbols)).step character =
          ([], ⟨.bare, some (symbols ++ [⟨character, false⟩])⟩) :=
        bareStep_ordinary isOrdinary.1 (fun _ => Option.some_ne_none symbols)
      rw [Reader.read, one]
      dsimp only
      rw [induction isOrdinary.2, List.append_assoc]
      rfl

/-- A word of ordinary characters that does not begin a comment. -/
theorem reads_ordinary {text : Text} (isOrdinary : forall character, character ∈ text -> ordinary character = true)
    (nonempty : text ≠ []) (noComment : text.head? ≠ some '#') :
    reads text = some [.word (bare text)] := by
  cases text with
  | nil => exact absurd rfl nonempty
  | cons character rest =>
      rw [List.forall_mem_cons] at isOrdinary
      have one : Reader.fresh.step character = ([], ⟨.bare, some [⟨character, false⟩]⟩) := by
        apply bareStep_ordinary isOrdinary.1
        intro isHash
        exact absurd (congrArg some isHash) noComment
      apply reads_eq_some.mpr
      refine ⟨[], some (bare (character :: rest)), ?_, rfl⟩
      rw [Reader.read, one]
      dsimp only
      rw [read_ordinary isOrdinary.2]
      rfl

/-- A quoted text with ordinary characters behind it. -/
theorem reads_quote_bare (text : Text) {more : Text}
    (isOrdinary : forall character, character ∈ more -> ordinary character = true) :
    reads (quote text ++ more) = some [.word (quoted text ++ bare more)] := by
  apply reads_eq_some.mpr
  refine ⟨[], some (quoted text ++ bare more), ?_, rfl⟩
  rw [Reader.read_append, Reader.fresh, read_quote]
  dsimp only
  rw [Option.getD_none, List.nil_append, read_ordinary isOrdinary]
  rfl

/-- A comment goes on to the end of the line. -/
theorem lex_comment {text : Text} (oneLine : '\n' ∉ text) : lex ('#' :: text) = some [] := by
  have stays : (Reader.mk .comment none).read text = ([], ⟨.comment, none⟩) := by
    induction text with
    | nil => rfl
    | cons character rest induction =>
        rw [List.mem_cons, not_or] at oneLine
        have one : (Reader.mk .comment none).step character = ([], ⟨.comment, none⟩) :=
          if_neg (fun isBreak => oneLine.1 isBreak.symm)
        rw [Reader.read, one]
        dsimp only
        rw [induction oneLine.2]
        rfl
  have opened : Reader.fresh.step '#' = ([], ⟨.comment, none⟩) := rfl
  rw [lex, Reader.lexFrom, Reader.read, opened]
  dsimp only
  rw [stays]
  rfl

/-- Quoted texts with blanks between them. -/
theorem reads_quotes (texts : List Text) : reads (" ".toList.intercalate (texts.map quote)) =
    some (texts.map (fun text => .word (quoted text))) := by
  induction texts with
  | nil => rfl
  | cons text rest induction =>
      cases rest with
      | nil =>
          rw [List.map_singleton, List.intercalate_singleton]
          exact reads_quote text
      | cons next rest =>
          rw [List.map_cons, List.map_cons, List.intercalate_cons_cons, List.append_assoc]
          exact reads_blank (reads_quote text) induction

/-! ## Literal words -/

/-- The characters that pathname patterns are made with. -/
def isPattern (character : Char) : Bool :=
  "*?[".toList.contains character

/-- A word which stands for its text: neither a pattern nor a home directory is looked up for it. -/
structure Literal (word : List Symbol) : Prop where
  pattern : forall symbol, symbol ∈ word -> symbol.quoted = false -> isPattern symbol.character = false
  tilde : word.head? ≠ some ⟨'~', false⟩

theorem literal_quoted (text : Text) : Literal (quoted text) := by
  constructor
  · intro symbol member isBare
    rcases List.mem_map.mp member with ⟨character, _, rfl⟩
    cases isBare
  · intro isTilde
    cases text with
    | nil => cases isTilde
    | cons character rest => cases isTilde

theorem literal_bare {text : Text} : Literal (bare text) <->
    (forall character, character ∈ text -> isPattern character = false) /\ text.head? ≠ some '~' := by
  constructor
  · rintro ⟨pattern, tilde⟩
    constructor
    · intro character member
      exact pattern ⟨character, false⟩ (List.mem_map_of_mem member) rfl
    · intro isTilde
      apply tilde
      rw [bare, List.head?_map, isTilde]
      rfl
  · rintro ⟨pattern, tilde⟩
    constructor
    · intro symbol member isBare
      rcases List.mem_map.mp member with ⟨character, inside, rfl⟩
      exact pattern character inside
    · intro isTilde
      apply tilde
      rw [bare, List.head?_map] at isTilde
      rcases Option.map_eq_some_iff.mp isTilde with ⟨character, head, same⟩
      cases same
      exact head

theorem literal_append {front back : List Symbol} (nonempty : front ≠ []) (first : Literal front)
    (others : forall symbol, symbol ∈ back -> symbol.quoted = false -> isPattern symbol.character = false) :
    Literal (front ++ back) := by
  constructor
  · intro symbol member
    rcases List.mem_append.mp member with early | late
    · exact first.pattern symbol early
    · exact others symbol late
  · rw [List.head?_append_of_ne_nil _ nonempty]
    exact first.tilde

end Shell

end Foundations
end Agapornis
