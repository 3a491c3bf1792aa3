import Agapornis.Foundations.ShellWeights
import Agapornis.Storage.ContainerWords

namespace Agapornis
namespace Storage

open Foundations Agapornis.Core
open Foundations.Shell (Symbol Token Reader Script bare quoted reads lex ordinary isPattern Literal
  countAll singleQuote doubleQuote enclosed)

/-!
# The words of an archive command

The action that an archive traps is put between single quotes although the
temporary file in it is quoted already.  The enclosed quotes end the outer ones,
so that the shell reads the name of the temporary file without quotes, once in
the script and once more when the action is run.
-/

/-! ## An argument with a quoted text in it -/

/-- The quoted beginning of the argument. -/
def opening : Text :=
  "'rm -f -- '".toList

/-- The argument of a trap that removes a file. -/
def trapArgument (temporary : Text) : Text :=
  opening ++ (enclosed temporary ++ [singleQuote, singleQuote])

/-- What is read of it first. -/
def removing : List Symbol :=
  quoted "rm -f -- ".toList

theorem enclosed_of_ordinary {text : Text} (isOrdinary : forall character, character ∈ text ->
    ordinary character = true) : enclosed text = text := by
  apply Shell.enclosed_of_not_mem
  intro member
  cases isOrdinary singleQuote member

/-- The argument is read up to the first character that is not ordinary. -/
theorem lex_trapArgument {front : Text} (isOrdinary : forall character, character ∈ front ->
    ordinary character = true) (back rest : Text) :
    lex (trapArgument (front ++ back) ++ rest) =
      (Reader.mk .bare (some (removing ++ bare front))).lexFrom
        (enclosed back ++ ([singleQuote, singleQuote] ++ rest)) := by
  have regroup : trapArgument (front ++ back) ++ rest =
      opening ++ (front ++ (enclosed back ++ ([singleQuote, singleQuote] ++ rest))) := by
    rw [trapArgument, Shell.enclosed_append, enclosed_of_ordinary isOrdinary]
    simp only [List.append_assoc]
  have opened : Reader.fresh.read opening = ([], ⟨.bare, some removing⟩) := by decide
  rw [lex, regroup]
  exact (Reader.lexFrom_of_read opened _).trans
    (Reader.lexFrom_of_read (Shell.read_ordinary isOrdinary removing) _)

/-- What stands behind the argument: all of it is kept but quotes, backslashes and blanks. -/
structure Follows (rest : Text) (tokens : List Token) : Prop where
  starts : Exists fun tail => rest = ' ' :: 'E' :: tail
  counts : Shell.Kept rest tokens

/-- An argument that is one word, which becomes the removal of the file once it is read again. -/
structure ReadTwice (temporary rest : Text) (tokens : List Token) (action target : List Symbol) : Prop where
  once : lex (trapArgument temporary ++ rest) = some (.word action :: tokens)
  again : lex (Shell.value action) =
    some [.word (plain "rm"), .word (plain "-f"), .word (plain "--"), .word target]
  same : Shell.value target = temporary

namespace ReadTwice

variable {front back temporary rest : Text} {character : Char} {tokens : List Token}
  {action target : List Symbol}

theorem count_removing (wanted : Char -> Bool) (text : Text) :
    (Shell.value (removing ++ bare text)).countP wanted =
      "rm -f -- ".toList.countP wanted + text.countP wanted := by
  rw [Shell.value_append, removing, Shell.value_quoted, Shell.value_bare, List.countP_append]

/-- The second reading keeps the characters of the action, or fewer. -/
theorem count_le (twice : ReadTwice temporary rest tokens action target) {wanted : Char -> Bool}
    (noBackslash : wanted '\\' = false) :
    "rm-f--".toList.countP wanted + temporary.countP wanted ≤ (Shell.value action).countP wanted := by
  have bound := Reader.count_lexFrom noBackslash twice.again
  have fresh : Reader.fresh.count wanted = 0 := rfl
  have command : "rm-f--".toList = "rm".toList ++ ("-f".toList ++ "--".toList) := by decide
  have word : (Token.word target).count wanted = temporary.countP wanted :=
    congrArg (List.countP wanted) twice.same
  rw [Shell.countAll_cons, Shell.countAll_cons, Shell.countAll_cons, Shell.countAll_cons,
    Shell.countAll_nil, word, fresh,
    plain, plain, plain, Shell.count_bare, Shell.count_bare, Shell.count_bare] at bound
  rw [command, List.countP_append, List.countP_append]
  omega

/-- The word cannot end within the path. -/
theorem not_ended (twice : ReadTwice (front ++ character :: back) rest tokens action target)
    (isOrdinary : forall other, other ∈ front -> ordinary other = true)
    (notSingle : character ≠ singleQuote)
    (last : Exists fun digit => digit ∈ character :: back /\ digit.isAlphanum = true)
    (ends : ((Reader.mk .bare (some (removing ++ bare front))).step character).1 =
      [.word (removing ++ bare front)]) : False := by
  have once := twice.once
  rw [lex_trapArgument isOrdinary, Shell.enclosed_cons notSingle, List.cons_append, Reader.lexFrom_cons, ends] at once
  rcases Option.map_eq_some_iff.mp once with ⟨later, _, same⟩
  cases same
  have bound := @count_le _ _ _ _ _ twice Char.isAlphanum (by decide)
  have positive : 0 < (character :: back).countP Char.isAlphanum := List.countP_pos_iff.mpr last
  have short : "rm-f--".toList.countP Char.isAlphanum = 3 := by decide
  have long : "rm -f -- ".toList.countP Char.isAlphanum = 3 := by decide
  rw [count_removing, List.countP_append, short, long] at bound
  omega

/-- A double quote would be dropped, and what stands behind the argument is needed elsewhere. -/
theorem not_double (twice : ReadTwice (front ++ character :: back) rest tokens action target)
    (follows : Follows rest tokens)
    (isOrdinary : forall other, other ∈ front -> ordinary other = true)
    (isDouble : character = doubleQuote) : False := by
  subst isDouble
  have once := twice.once
  rw [lex_trapArgument isOrdinary, Shell.enclosed_cons (by decide), List.cons_append, Reader.lexFrom_cons] at once
  have opens : (Reader.mk .bare (some (removing ++ bare front))).step doubleQuote =
      ([], ⟨.double, some (removing ++ bare front ++ [])⟩) := by
    simp [Reader.step, Reader.bareStep, Reader.push, doubleQuote, singleQuote]
  rw [opens, List.append_nil] at once
  rcases Option.map_eq_some_iff.mp once with ⟨later, found, same⟩
  rw [List.nil_append] at same
  rw [same] at found
  have double : (doubleQuote == doubleQuote) = true := by decide
  have none : front.countP (· == doubleQuote) = 0 := by
    rw [List.countP_eq_zero]
    intro other member isDouble
    have special := isOrdinary other member
    rw [eq_of_beq isDouble] at special
    cases special
  have bound := @Reader.count_lexFrom (· == doubleQuote) (by decide) _ _ _ found
  have begun : (Reader.mk .double (some (removing ++ bare front))).count (· == doubleQuote) = 0 := by
    have word := count_removing (· == doubleQuote) front
    have command : "rm -f -- ".toList.countP (· == doubleQuote) = 0 := by decide
    rw [none, command] at word
    exact word
  have quotes : [singleQuote, singleQuote].countP (· == doubleQuote) = 0 := by decide
  have again := @count_le _ _ _ _ _ twice (· == doubleQuote) (by decide)
  have action : (Token.word action).count (· == doubleQuote) =
    (Shell.value action).countP (· == doubleQuote) := rfl
  rw [Shell.countAll_cons, follows.counts _ (by decide) (by decide) (by decide), begun, List.countP_append,
    List.countP_append, quotes, Shell.count_enclosed (by decide) (by decide), action] at bound
  rw [List.countP_append, none, List.countP_cons, if_pos double] at again
  omega

/-- Behind a single quote the path and what follows it are quoted, and stay in the word. -/
theorem not_single (twice : ReadTwice (front ++ character :: back) rest tokens action target)
    (follows : Follows rest tokens)
    (isOrdinary : forall other, other ∈ front -> ordinary other = true)
    (isSingle : character = singleQuote) : False := by
  subst isSingle
  rcases follows.starts with ⟨tail, starts⟩
  have opens : (Reader.mk .bare (some (removing ++ bare front))).read
      [singleQuote, '\\', singleQuote, singleQuote] =
        ([], ⟨.single, some (removing ++ bare front ++ [⟨'\\', true⟩])⟩) := by
    simp [Reader.read, Reader.step, Reader.bareStep, Reader.push, singleQuote]
  have path := Shell.read_enclosed back (removing ++ bare front ++ [⟨'\\', true⟩])
  have behind (word : List Symbol) : (Reader.mk .single (some word)).read [singleQuote, singleQuote, ' ', 'E'] =
      ([], ⟨.single, some (word ++ quoted [' ', 'E'])⟩) := by
    simp [Reader.read, Reader.step, Reader.bareStep, Reader.push, singleQuote, quoted]
  have once := twice.once
  have regroup : enclosed (singleQuote :: back) ++ ([singleQuote, singleQuote] ++ rest) =
      [singleQuote, '\\', singleQuote, singleQuote] ++
        (enclosed back ++ ([singleQuote, singleQuote, ' ', 'E'] ++ tail)) := by
    rw [enclosed, List.flatMap_cons, if_pos rfl, starts, List.append_assoc]
    rfl
  rw [lex_trapArgument isOrdinary, regroup, Reader.lexFrom_of_read opens, Reader.lexFrom_of_read path,
    Reader.lexFrom_of_read (behind _)] at once
  have within (word : List Symbol) : (Reader.mk .single (some word)).Within word :=
    ⟨rfl, fun _ same => (by cases same), fun same => (by cases same)⟩
  rcases Reader.lexFrom_within (within _) once with ⟨more, others, same⟩
  have isAction : action = removing ++ bare front ++ [⟨'\\', true⟩] ++ quoted back ++ quoted [' ', 'E'] ++ more :=
    Token.word.inj (List.cons.inj same).1
  have kept : "rm -f -- ".toList.countP Char.isAlphanum + front.countP Char.isAlphanum +
      back.countP Char.isAlphanum + 1 ≤ (Shell.value action).countP Char.isAlphanum := by
    have escape : (Shell.value [⟨'\\', true⟩]).countP Char.isAlphanum = 0 := by decide
    have letter : [' ', 'E'].countP Char.isAlphanum = 1 := by decide
    rw [isAction, Shell.value_append, Shell.value_append, Shell.value_append, Shell.value_append,
      Shell.value_quoted, Shell.value_quoted, List.countP_append, List.countP_append, List.countP_append,
      List.countP_append, count_removing, escape, letter]
    omega
  have bound := @Reader.count_lexFrom Char.isAlphanum (by decide) _ _ _ twice.once
  have fresh : Reader.fresh.count Char.isAlphanum = 0 := rfl
  have begun : opening.countP Char.isAlphanum = "rm -f -- ".toList.countP Char.isAlphanum := by decide
  have quotes : [singleQuote, singleQuote].countP Char.isAlphanum = 0 := by decide
  have notDigit : singleQuote.isAlphanum = false := by decide
  have word : (Token.word action).count Char.isAlphanum = (Shell.value action).countP Char.isAlphanum := rfl
  rw [Shell.countAll_cons, follows.counts _ notDigit (by decide) (by decide), fresh, word, trapArgument,
    List.countP_append, List.countP_append, List.countP_append, begun, quotes,
    Shell.count_enclosed notDigit (by decide), List.countP_append, List.countP_cons, notDigit] at bound
  simp only [Bool.false_eq_true, if_false] at bound
  omega

/-- A path that is read twice as it is has no special character in it. -/
theorem ordinary (twice : ReadTwice temporary rest tokens action target) (follows : Follows rest tokens)
    (noBackslash : '\\' ∉ temporary)
    (last : Exists fun front => Exists fun digit => temporary = front ++ [digit] /\ digit.isAlphanum = true) :
    forall character, character ∈ temporary -> Shell.ordinary character = true := by
  cases found : temporary.find? (fun character => !Shell.ordinary character) with
  | none =>
      intro character member
      simpa using List.find?_eq_none.mp found character member
  | some character =>
      rcases List.find?_eq_some_iff_append.mp found with ⟨special, front, back, rfl, before⟩
      have isSpecial : Shell.ordinary character = false := by simpa using special
      have isOrdinary : forall other, other ∈ front -> Shell.ordinary other = true := by
        intro other member
        simpa using before other member
      have notEscape : character ≠ '\\' := by
        rintro rfl
        exact noBackslash (List.mem_append_right front List.mem_cons_self)
      by_cases isSingle : character = singleQuote
      · exact absurd isSingle (fun same => not_single twice follows isOrdinary same)
      · rcases Shell.bareStep_special isSpecial notEscape isSingle (removing ++ bare front) with
          ⟨isDouble, _⟩ | expands | ends
        · exact absurd isDouble (fun same => not_double twice follows isOrdinary same)
        · have once := twice.once
          rw [lex_trapArgument isOrdinary, Shell.enclosed_cons isSingle, List.cons_append, Reader.lexFrom_cons] at once
          have step : (Reader.mk .bare (some (removing ++ bare front))).step character = _ := expands
          rw [step, Reader.lexFrom_expansion] at once
          cases once
        · have digit : Exists fun digit => digit ∈ character :: back /\ digit.isAlphanum = true := by
            rcases last with ⟨early, digit, same, isDigit⟩
            refine ⟨digit, ?_, isDigit⟩
            have final := congrArg List.getLast? same
            rw [List.getLast?_append_cons, List.getLast?_concat] at final
            exact List.mem_of_getLast? final
          exact absurd ends (fun same => not_ended twice isOrdinary isSingle digit same)

end ReadTwice

/-- Where all characters are ordinary, the argument is one word. -/
theorem reads_trapArgument {temporary : Text} (isOrdinary : forall character, character ∈ temporary ->
    ordinary character = true) :
    reads (trapArgument temporary) = some [.word (removing ++ bare temporary)] := by
  have opened : Reader.fresh.read opening = ([], ⟨.bare, some removing⟩) := by decide
  have closed (word : List Symbol) : (Reader.mk .bare (some word)).read [singleQuote, singleQuote] =
      ([], ⟨.bare, some word⟩) := by
    simp [Reader.read, Reader.step, Reader.bareStep, Reader.push, singleQuote]
  apply Shell.reads_eq_some.mpr
  refine ⟨[], some (removing ++ bare temporary), ?_, rfl⟩
  rw [trapArgument, enclosed_of_ordinary isOrdinary, Reader.read_append, opened]
  dsimp only
  rw [Reader.read_append, Shell.read_ordinary isOrdinary]
  dsimp only
  rw [closed]
  rfl

/-! ## The text behind the checks -/

namespace ArchiveJob

def checkText (job : ArchiveJob) : Text :=
  "; ".toList.intercalate
    (demanded (isDirectoryTest job.parent) .archiveNoDirectory ::
      demanded (absentTest job.destination) .archiveNameTaken :: job.items.map (check job.destination))

/-- What is done once the trap is set. -/
def restText (job : ArchiveJob) : Text :=
  "; ".toList.intercalate [job.enterText, job.packText, job.putText, "trap - EXIT".toList]

theorem reads_check (destination : Text) (item : ArchiveItem × Nat) :
    reads (check destination item.1) = some (checkScripts destination item).tokens := by
  refine Script.reads_inOrder (.cons ?_ .nil) ?_
  · exact reads_forbidden (.inside item.2) _ _ _
  · exact reads_demanded (reads_availableTest item.2 _) _

theorem reads_checkText (job : ArchiveJob) : reads job.checkText = some job.checkScript.tokens := by
  apply Script.reads_inOrder
  · exact .cons (reads_demanded (reads_absentTest .absent job.destination) _)
      (Script.forall₂_zipIdx (reads_check job.destination) job.items 0)
  · exact reads_demanded (reads_isDirectoryTest job.parent) _

theorem intercalate_work (separator first next last : Text) (checks work : List Text) :
    separator.intercalate (first :: checks ++ next :: last :: work) =
      separator.intercalate (first :: checks) ++
        (separator ++ (next ++ (separator ++ separator.intercalate (last :: work)))) := by
  rw [Text.intercalate_append, List.intercalate_cons_cons, List.append_assoc next]

theorem text_eq (job : ArchiveJob) :
    job.text = job.checkText ++ ("; ".toList ++ (job.trapText ++ ("; ".toList ++ job.restText))) :=
  intercalate_work _ _ _ _ _ _

theorem trapText_eq (temporary : Text) :
    "trap 'rm -f -- ".toList ++ (singleQuote :: (temporary ++ [singleQuote]) ++ "' EXIT".toList) =
      "trap".toList ++ ' ' :: (opening ++ (temporary ++ [singleQuote, singleQuote]) ++ ' ' :: "EXIT".toList) := by
  simp only [List.append_assoc, List.cons_append]
  rfl

theorem packText_eq (temporary sources : Text) :
    "tar -czf ".toList ++ temporary ++ " -- ".toList ++ sources =
      "tar -czf".toList ++ ' ' :: (temporary ++ ' ' :: ("--".toList ++ ' ' :: sources)) := by
  simp only [List.append_assoc]
  rfl

theorem intercalate_four (separator first second third last : Text) :
    separator.intercalate [first, second, third, last] =
      first ++ (separator ++ (second ++ (separator ++ (third ++ (separator ++ last))))) := by
  rw [List.intercalate_cons_cons, List.intercalate_cons_cons, List.intercalate_cons_cons,
    List.intercalate_singleton]
  simp only [List.append_assoc]

theorem restText_eq (job : ArchiveJob) : job.restText =
    "cd".toList ++ ' ' :: Shell.quote job.root ++ ("; ".toList ++
      ("tar -czf".toList ++ ' ' :: (Shell.quote job.temporary ++ ' ' :: ("--".toList ++ ' ' ::
          " ".toList.intercalate ((job.items.map ArchiveItem.relative).map Shell.quote))) ++ ("; ".toList ++
        ("mv --".toList ++ ' ' :: (Shell.quote job.temporary ++ ' ' :: Shell.quote job.destination) ++
          ("; ".toList ++ "trap - EXIT".toList))))) := by
  have pack : job.packText = _ := packText_eq (Shell.quote job.temporary) (sourceWords job.items)
  rw [restText, intercalate_four, pack, List.map_map]
  rfl

theorem reads_restText (job : ArchiveJob) : reads job.restText = some job.restScript.tokens := by
  have cd : reads "cd".toList = some [.word (plain "cd")] := by decide
  have tar : reads "tar -czf".toList = some [.word (plain "tar"), .word (plain "-czf")] := by decide
  have marker : reads "--".toList = some [.word (plain "--")] := by decide
  have untrap : reads "trap - EXIT".toList =
      some [.word (plain "trap"), .word (plain "-"), .word (plain "EXIT")] := by decide
  have sources := Shell.reads_quotes (job.items.map ArchiveItem.relative)
  have temporary := Shell.reads_quote job.temporary
  have enter := Shell.reads_blank cd (Shell.reads_quote job.root)
  have pack := Shell.reads_blank tar (Shell.reads_blank temporary (Shell.reads_blank marker sources))
  have put := Shell.reads_blank reads_mv (Shell.reads_blank temporary (Shell.reads_quote job.destination))
  rw [restText_eq, Shell.reads_semicolon enter (Shell.reads_semicolon pack (Shell.reads_semicolon put untrap))]
  simp only [restScript, Script.inOrder, Script.tokens, List.map_append, List.map_map]
  rfl

/-- Up to the argument of the trap the text is read as the script. -/
theorem lex_text (job : ArchiveJob) : lex job.text =
    (lex (trapArgument job.temporary ++ ' ' :: ("EXIT".toList ++ ("; ".toList ++ job.restText)))).map
      (job.checkScript.tokens ++ [.operator ";".toList] ++ [.word (plain "trap")] ++ ·) := by
  have trap : reads "trap".toList = some [.word (plain "trap")] := by decide
  have argument : job.trapText = _ := trapText_eq (enclosed job.temporary)
  have regroup : job.trapText ++ ("; ".toList ++ job.restText) = "trap".toList ++ ' ' ::
      (trapArgument job.temporary ++ ' ' :: ("EXIT".toList ++ ("; ".toList ++ job.restText))) := by
    rw [argument, trapArgument]
    simp only [List.append_assoc, List.cons_append]
  rw [text_eq, regroup, Shell.lex_semicolon job.reads_checkText, Shell.lex_blank trap, Option.map_map]
  congr 1
  funext tokens
  exact (List.append_assoc _ _ _).symm

/-- What stands behind the argument of the trap. -/
def behindTrap (job : ArchiveJob) : Text :=
  ' ' :: ("EXIT".toList ++ ("; ".toList ++ job.restText))

def behindTokens (job : ArchiveJob) : List Token :=
  .word (plain "EXIT") :: .operator ";".toList :: job.restScript.tokens

theorem kept_restText (job : ArchiveJob) : Shell.Kept job.restText job.restScript.tokens := by
  have tar : Shell.Kept "tar -czf".toList [.word (plain "tar"), .word (plain "-czf")] :=
    Shell.kept_blank (Shell.kept_bare "tar".toList) (Shell.kept_bare "-czf".toList)
  have mv : Shell.Kept "mv --".toList [.word (plain "mv"), .word (plain "--")] :=
    Shell.kept_blank (Shell.kept_bare "mv".toList) (Shell.kept_bare "--".toList)
  have untrap : Shell.Kept "trap - EXIT".toList
      [.word (plain "trap"), .word (plain "-"), .word (plain "EXIT")] :=
    Shell.kept_blank (Shell.kept_bare "trap".toList)
      (Shell.kept_blank (Shell.kept_bare "-".toList) (Shell.kept_bare "EXIT".toList))
  have sources := Shell.kept_quotes (job.items.map ArchiveItem.relative)
  have temporary := Shell.kept_quote job.temporary
  have enter := Shell.kept_blank (Shell.kept_bare "cd".toList) (Shell.kept_quote job.root)
  have pack := Shell.kept_blank tar
    (Shell.kept_blank temporary (Shell.kept_blank (Shell.kept_bare "--".toList) sources))
  have put := Shell.kept_blank mv (Shell.kept_blank temporary (Shell.kept_quote job.destination))
  have whole := Shell.kept_semicolon enter (Shell.kept_semicolon pack (Shell.kept_semicolon put untrap))
  rw [restText_eq]
  simp only [restScript, Script.inOrder, Script.tokens, List.map_append, List.map_map]
  simp only [List.map_map] at whole
  exact whole

theorem follows_behindTrap (job : ArchiveJob) : Follows job.behindTrap job.behindTokens := by
  constructor
  · exact ⟨_, rfl⟩
  · have nothing : Shell.Kept [] [] := fun _ _ _ _ => rfl
    have exit : Shell.Kept "EXIT".toList [.word (plain "EXIT")] := Shell.kept_bare "EXIT".toList
    have whole := Shell.kept_blank nothing (Shell.kept_semicolon exit job.kept_restText)
    rw [List.nil_append, List.nil_append, List.singleton_append] at whole
    exact whole

theorem lex_behindTrap (job : ArchiveJob) {argument : Text} {word : List Symbol}
    (found : reads argument = some [.word word]) :
    lex (argument ++ job.behindTrap) = some (.word word :: job.behindTokens) := by
  have exit : reads "EXIT".toList = some [.word (plain "EXIT")] := by decide
  rw [behindTrap, Shell.lex_blank found,
    Shell.lex_of_reads (Shell.reads_semicolon exit job.reads_restText)]
  rfl

/-- The script is read from the text exactly when the argument of the trap is one word. -/
theorem lex_text_iff (job : ArchiveJob) (action : List Symbol) :
    lex job.text = some (job.script action).tokens <->
      lex (trapArgument job.temporary ++ job.behindTrap) = some (.word action :: job.behindTokens) := by
  have tokens : (job.script action).tokens =
      job.checkScript.tokens ++ [.operator ";".toList] ++ [.word (plain "trap")] ++
        (.word action :: job.behindTokens) := by
    simp only [script, Script.tokens, behindTokens, List.append_assoc]
    rfl
  rw [lex_text, tokens, ← behindTrap]
  constructor
  · intro found
    rcases Option.map_eq_some_iff.mp found with ⟨later, same, joined⟩
    rw [same, List.append_cancel_left joined]
  · intro found
    rw [found, Option.map_some]

end ArchiveJob

/-! ## Paths as data -/

/-- The text is read as the script, with one word for the trapped action, and the action is read as
the removal of the temporary file; nothing is looked up for any of the words. -/
structure ArchiveJob.ReadAs (job : ArchiveJob) (action target : List Symbol) : Prop where
  script : lex job.text = some (job.script action).tokens
  literalAction : Literal action
  again : lex (Shell.value action) =
    some [.word (plain "rm"), .word (plain "-f"), .word (plain "--"), .word target]
  literalTarget : Literal target
  same : Shell.value target = job.temporary

def ArchiveJob.PathsAreData (job : ArchiveJob) : Prop :=
  Exists fun action => Exists fun target => job.ReadAs action target

/-- A character that has no meaning for the shell in the middle of a word. -/
def Safe (character : Char) : Prop :=
  ordinary character = true /\ isPattern character = false

theorem safe_of_isAlphanum {character : Char} (isAlphanum : character.isAlphanum = true) : Safe character := by
  refine ⟨Shell.ordinary_of_isAlphanum isAlphanum, ?_⟩
  by_contra special
  have inside : character ∈ "*?[".toList :=
    List.contains_iff_mem.mp (Bool.of_not_eq_false special)
  have none : "*?[".toList.all (fun other => !other.isAlphanum) = true := by decide
  have notAlphanum := List.all_eq_true.mp none character inside
  rw [isAlphanum] at notAlphanum
  cases notAlphanum

theorem ArchiveJob.pathsAreData_iff {job : ArchiveJob} (noBackslash : '\\' ∉ job.temporary)
    (last : Exists fun front => Exists fun digit =>
      job.temporary = front ++ [digit] /\ digit.isAlphanum = true) :
    job.PathsAreData <-> (forall character, character ∈ job.temporary -> Safe character) /\
      job.temporary.head? ≠ some '#' /\ job.temporary.head? ≠ some '~' := by
  have remove : reads "rm -f --".toList = some [.word (plain "rm"), .word (plain "-f"), .word (plain "--")] := by
    decide
  have nonempty : job.temporary ≠ [] := by
    rcases last with ⟨front, digit, same, _⟩
    rw [same]
    exact List.append_ne_nil_of_right_ne_nil front (List.cons_ne_nil _ _)
  have command : Shell.value (removing ++ bare job.temporary) = "rm -f --".toList ++ ' ' :: job.temporary := by
    rw [Shell.value_append, removing, Shell.value_quoted, Shell.value_bare]
    rfl
  constructor
  · rintro ⟨action, target, readAs⟩
    have twice : ReadTwice job.temporary job.behindTrap job.behindTokens action target :=
      ⟨(job.lex_text_iff action).mp readAs.script, readAs.again, readAs.same⟩
    have isOrdinary := twice.ordinary job.follows_behindTrap noBackslash last
    have once := twice.once
    rw [job.lex_behindTrap (reads_trapArgument isOrdinary)] at once
    have isAction := Token.word.inj (List.cons.inj (Option.some.inj once)).1
    have again := readAs.again
    rw [← isAction, command, Shell.lex_blank remove] at again
    have oneLine : '\n' ∉ job.temporary := by
      intro isBreak
      cases isOrdinary '\n' isBreak
    have noComment : job.temporary.head? ≠ some '#' := by
      intro isComment
      rcases List.head?_eq_some_iff.mp isComment with ⟨rest, same⟩
      rw [same, List.mem_cons, not_or] at oneLine
      rw [same, Shell.lex_comment oneLine.2] at again
      cases again
    rw [Shell.lex_of_reads (Shell.reads_ordinary isOrdinary nonempty noComment), Option.map_some] at again
    have isTarget : target = bare job.temporary := by
      cases again
      rfl
    rcases Shell.literal_bare.mp (isTarget ▸ readAs.literalTarget) with ⟨pattern, tilde⟩
    exact ⟨fun character member => ⟨isOrdinary character member, pattern character member⟩, noComment, tilde⟩
  · rintro ⟨safe, noComment, tilde⟩
    have isOrdinary : forall character, character ∈ job.temporary -> ordinary character = true :=
      fun character member => (safe character member).1
    refine ⟨removing ++ bare job.temporary, bare job.temporary, ?_⟩
    constructor
    · exact (job.lex_text_iff _).mpr (job.lex_behindTrap (reads_trapArgument isOrdinary))
    · refine Shell.literal_append (by decide) (Shell.literal_quoted _) ?_
      intro symbol member _
      rcases List.mem_map.mp member with ⟨character, inside, rfl⟩
      exact (safe character inside).2
    · rw [command, Shell.lex_blank remove,
        Shell.lex_of_reads (Shell.reads_ordinary isOrdinary nonempty noComment)]
      rfl
    · exact Shell.literal_bare.mpr ⟨fun character member => (safe character member).2, tilde⟩
    · exact Shell.value_bare _

/-! ## The temporary file of a request -/

theorem trimSlashes_eq (path : Text) : trimSlashes path = path.rdropWhile (fun other => decide (other = '/')) :=
  rfl

theorem mem_trimSlashes {path : Text} {character : Char} (notSlash : character ≠ '/') :
    character ∈ trimSlashes path <-> character ∈ path := by
  have parts : path.rdropWhile (fun other => decide (other = '/')) ++
      path.rtakeWhile (fun other => decide (other = '/')) = path := List.rdropWhile_append_rtakeWhile
  rw [trimSlashes_eq]
  nth_rewrite 2 [← parts]
  rw [List.mem_append]
  constructor
  · exact Or.inl
  · rintro (kept | taken)
    · exact kept
    · have isSlash := List.mem_rtakeWhile_imp taken
      exact absurd (of_decide_eq_true isSlash) notSlash

/-- A path below a directory begins as the directory does, or with a slash. -/
theorem head_trimSlashes {path rest : Text} {character : Char} (notSlash : character ≠ '/')
    (notBackslash : character ≠ '\\') :
    (Paths.slashed (trimSlashes path) ++ '/' :: rest).head? = some character <->
      path.head? = some character := by
  cases trimmed : trimSlashes path with
  | nil =>
      have onlySlashes := List.rdropWhile_eq_nil_iff.mp trimmed
      have slash : (Paths.slashed [] ++ '/' :: rest).head? = some '/' := rfl
      rw [slash]
      constructor
      · intro same
        exact absurd (Option.some.inj same).symm notSlash
      · intro first
        have isSlash := onlySlashes character (List.mem_of_mem_head? first)
        exact absurd (of_decide_eq_true isSlash) notSlash
  | cons first others =>
      have isPrefix : first :: others <+: path := trimmed ▸ List.rdropWhile_prefix _ path
      rcases isPrefix with ⟨slashes, rfl⟩
      have front : (Paths.slashed (first :: others) ++ '/' :: rest).head? =
          some (if first = '\\' then '/' else first) := rfl
      rw [front, List.cons_append, List.head?_cons, Option.some.injEq, Option.some.injEq]
      split_ifs with isBackslash
      · subst isBackslash
        exact iff_of_false (Ne.symm notSlash) (Ne.symm notBackslash)
      · exact Iff.rfl

theorem slashed_containerPath {root target : Text} {names : List Text}
    (requested : forall name, name ∈ names -> Paths.RequestedName name) (nonempty : names ≠ [])
    (joined : Paths.containerPath root (Paths.display names) = .ok target) :
    Paths.slashed target = Paths.slashed (trimSlashes root) ++ '/' :: Paths.display names := by
  have noBackslash := Paths.no_backslash_display requested
  have plain : Text.replaceChar '\\' '/' (Paths.display names) = Paths.display names :=
    Text.replaceChar_of_not_mem noBackslash
  have shown : (Paths.display names).isEmpty = false := by
    rw [Bool.eq_false_iff]
    intro isEmpty
    exact nonempty ((Paths.display_eq_nil requested).mp (List.isEmpty_iff.mp isEmpty))
  rw [Paths.containerPath, Paths.relative_display requested] at joined
  dsimp only at joined
  rw [plain, shown, if_neg Bool.false_ne_true] at joined
  cases joined
  rw [Paths.slashed_append]
  congr 1
  apply Text.replaceChar_of_not_mem
  intro member
  rcases List.mem_cons.mp member with isSlash | inside
  · cases isSlash
  · exact noBackslash inside

/-- The temporary file of an accepted request. -/
theorem temporary_of_createArchive {root : Root} {sourcePaths : List Text} {destinationPath : Text} {uuid : Uuid}
    {job : ArchiveJob}
    (accepted : createArchiveInContainer root sourcePaths destinationPath uuid = .ok job) :
    Exists fun names => Paths.relative destinationPath = .ok names /\
      job.temporary = Paths.slashed (trimSlashes root.container) ++ '/' ::
        (Paths.display names ++ (".agapornis-".toList ++ uuid.text)) := by
  rcases bind_eq_ok.mp accepted with ⟨sources, _, accepted⟩
  rcases bind_eq_ok.mp accepted with ⟨names, required, accepted⟩
  rcases bind_eq_ok.mp accepted with ⟨_, _, accepted⟩
  rcases bind_eq_ok.mp accepted with ⟨target, joined, accepted⟩
  rcases bind_eq_ok.mp accepted with ⟨items, _, accepted⟩
  cases accepted
  rcases requiredRelativePath_eq_ok.mp required with ⟨below, rfl⟩
  have relative := Paths.relative_ok below.1
  refine ⟨_, relative, ?_⟩
  rw [slashed_containerPath (Paths.relative_names relative) below.2 joined]
  simp only [List.append_assoc, List.cons_append]

theorem Uuid.safe (uuid : Uuid) : forall character, character ∈ ".agapornis-".toList ++ uuid.text ->
    Safe character /\ character ≠ '\\' := by
  intro character member
  have digits : forall group, group ∈ uuid.groups ++ [uuid.last] -> character ∈ group ->
      Safe character /\ character ≠ '\\' := by
    intro group inGroups inside
    have digit := List.all_eq_true.mp (List.all_eq_true.mp uuid.hexadecimal group inGroups) character inside
    refine ⟨safe_of_isAlphanum digit, ?_⟩
    rintro rfl
    cases digit
  rcases List.mem_append.mp member with fixed | random
  · have all : ".agapornis-".toList.all (fun other => ordinary other && !isPattern other && other ≠ '\\') =
        true := by decide
    have plainly := List.all_eq_true.mp all character fixed
    rw [Bool.and_eq_true, Bool.and_eq_true, Bool.not_eq_true'] at plainly
    exact ⟨plainly.1, of_decide_eq_true plainly.2⟩
  · rcases List.mem_append.mp random with early | late
    · rcases List.mem_flatMap.mp early with ⟨group, inGroups, inside⟩
      rcases List.mem_append.mp inside with digit | dash
      · exact digits group (List.mem_append_left _ inGroups) digit
      · rw [List.mem_singleton.mp dash]
        exact ⟨⟨by decide, by decide⟩, by decide⟩
    · exact digits uuid.last (List.mem_append_right _ (List.mem_singleton_self _)) late

theorem Uuid.text_last (uuid : Uuid) : Exists fun front => Exists fun digit =>
    uuid.text = front ++ [digit] /\ digit.isAlphanum = true := by
  rcases (List.eq_nil_or_concat' uuid.last).resolve_left uuid.last_ne with ⟨front, digit, same⟩
  refine ⟨uuid.groups.flatMap (fun group => group ++ ['-']) ++ front, digit, ?_, ?_⟩
  · rw [text, same, List.append_assoc]
  · apply List.all_eq_true.mp
      (List.all_eq_true.mp uuid.hexadecimal uuid.last (List.mem_append_right _ (List.mem_singleton_self _)))
    rw [same]
    exact List.mem_append_right _ (List.mem_singleton_self _)

/-- The paths of an archive are data exactly when neither the directory nor the destination holds a
character that the shell takes for something else; backslashes count as the slashes they become. -/
theorem archive_paths_are_data_iff (root : Root) (sourcePaths : List Text) (destinationPath : Text)
    (uuid : Uuid) (job : ArchiveJob)
    (accepted : createArchiveInContainer root sourcePaths destinationPath uuid = .ok job) :
    job.PathsAreData <->
      (forall character, character ∈ root.container \/ character ∈ destinationPath -> character ≠ '\\' ->
        Safe character) /\
      root.container.head? ≠ some '#' /\ root.container.head? ≠ some '~' := by
  rcases temporary_of_createArchive accepted with ⟨names, relative, temporary⟩
  have requested := Paths.relative_names relative
  have noBackslash : '\\' ∉ job.temporary := by
    rw [temporary]
    intro member
    rcases List.mem_append.mp member with inRoot | behind
    · exact Text.not_mem_replaceChar (by decide) _ inRoot
    · rcases List.mem_append.mp (List.mem_of_ne_of_mem (by decide) behind) with inNames | random
      · exact Paths.no_backslash_display requested inNames
      · exact (uuid.safe _ random).2 rfl
  have last : Exists fun front => Exists fun digit =>
      job.temporary = front ++ [digit] /\ digit.isAlphanum = true := by
    rcases uuid.text_last with ⟨front, digit, same, isDigit⟩
    refine ⟨Paths.slashed (trimSlashes root.container) ++ '/' ::
      (Paths.display names ++ (".agapornis-".toList ++ front)), digit, ?_, isDigit⟩
    rw [temporary, same]
    simp only [List.append_assoc, List.cons_append]
  rw [ArchiveJob.pathsAreData_iff noBackslash last, temporary, ne_eq,
    head_trimSlashes (by decide) (by decide), ne_eq, head_trimSlashes (by decide) (by decide)]
  refine and_congr_left (fun _ => ?_)
  have slash : Safe '/' := ⟨by decide, by decide⟩
  have dot : Safe '.' := ⟨by decide, by decide⟩
  constructor
  · rintro safe character inside notBackslash
    by_cases isSlash : character = '/'
    · rw [isSlash]
      exact slash
    by_cases isDot : character = '.'
    · rw [isDot]
      exact dot
    apply safe
    rcases inside with inRoot | inDestination
    · apply List.mem_append_left
      exact (Text.mem_replaceChar _ notBackslash isSlash).mpr ((mem_trimSlashes isSlash).mpr inRoot)
    · apply List.mem_append_right
      apply List.mem_cons_of_mem
      apply List.mem_append_left
      exact (Paths.mem_display_relative relative isSlash notBackslash isDot).mpr inDestination
  · intro safe character member
    by_cases isSlash : character = '/'
    · rw [isSlash]
      exact slash
    by_cases isDot : character = '.'
    · rw [isDot]
      exact dot
    rcases List.mem_append.mp member with inRoot | behind
    · have notBackslash : character ≠ '\\' := by
        rintro rfl
        exact Text.not_mem_replaceChar (by decide) _ inRoot
      have inside := (Text.mem_replaceChar _ notBackslash isSlash).mp inRoot
      exact safe character (.inl ((mem_trimSlashes isSlash).mp inside)) notBackslash
    · rcases List.mem_append.mp (List.mem_of_ne_of_mem isSlash behind) with inNames | random
      · have notBackslash : character ≠ '\\' := by
          rintro rfl
          exact Paths.no_backslash_display requested inNames
        exact safe character
          (.inr ((Paths.mem_display_relative relative isSlash notBackslash isDot).mp inNames)) notBackslash
      · exact (uuid.safe character random).1

def someUuid : Uuid where
  groups := ["0b3f1c2a".toList, "5d6e".toList, "4f70".toList, "8a9b".toList]
  last := "0123456789ab".toList
  last_ne := by decide
  hexadecimal := by decide

/-- The archive of one file in the directory `/data`. -/
def archiveOf (source destination : Text) : ArchiveJob where
  root := "/data".toList
  parent := "/data".toList
  destination := "/data/".toList ++ destination
  temporary := "/data/".toList ++ (destination ++ (".agapornis-".toList ++ someUuid.text))
  items := [⟨"/data/".toList ++ source, source⟩]

/-- A source with a blank in its name does no harm. -/
theorem archive_paths_are_data_iff_plain :
    createArchiveInContainer runningServer ["a b".toList] "b.tar.gz".toList someUuid =
        .ok (archiveOf "a b".toList "b.tar.gz".toList) /\
      ((archiveOf "a b".toList "b.tar.gz".toList).PathsAreData <->
        (forall character, character ∈ "/data".toList \/ character ∈ "b.tar.gz".toList -> character ≠ '\\' ->
          Safe character) /\ "/data".toList.head? ≠ some '#' /\ "/data".toList.head? ≠ some '~') :=
  ⟨by decide +kernel, archive_paths_are_data_iff runningServer ["a b".toList] "b.tar.gz".toList someUuid
    (archiveOf "a b".toList "b.tar.gz".toList) (by decide +kernel)⟩

/-- A blank in the name of the archive ends the argument of the trap. -/
theorem archive_blank_splits_trap :
    Not (forall root sourcePaths destinationPath uuid job,
      createArchiveInContainer root sourcePaths destinationPath uuid = .ok job -> job.PathsAreData) := by
  intro data
  have accepted : createArchiveInContainer runningServer ["a".toList] "b c.tar.gz".toList someUuid =
      .ok (archiveOf "a".toList "b c.tar.gz".toList) := by
    decide +kernel
  have noBackslash : '\\' ∉ (archiveOf "a".toList "b c.tar.gz".toList).temporary := by decide +kernel
  have last : Exists fun front => Exists fun digit =>
      (archiveOf "a".toList "b c.tar.gz".toList).temporary = front ++ [digit] /\ digit.isAlphanum = true :=
    ⟨(archiveOf "a".toList "b c.tar.gz".toList).temporary.dropLast, 'b', by decide +kernel, by decide⟩
  have safe := ((ArchiveJob.pathsAreData_iff noBackslash last).mp (data _ _ _ _ _ accepted)).1
  cases (safe ' ' (by decide +kernel)).1

end Storage
end Agapornis
