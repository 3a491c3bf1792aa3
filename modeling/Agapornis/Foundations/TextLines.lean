import Agapornis.Foundations.Utf8Lossy

namespace Agapornis
namespace Foundations

/-!
# Lines of texts and of their bytes

A line feed is one byte, which no other character contains.  So the lines of a
text that is read from bytes are read from the lines of these bytes, whether or
not the bytes are those of a text.
-/

/-- A list without the separator is one piece; otherwise its first separator
stands behind its first piece. -/
theorem separatorInduction {Item : Type} [DecidableEq Item] {separator : Item} {motive : List Item -> Prop}
    (last : forall line, separator ∉ line -> motive line)
    (next : forall line rest, separator ∉ line -> motive rest -> motive (line ++ separator :: rest)) :
    forall items, motive items := by
  intro items
  generalize size : items.length = bound
  induction bound using Nat.strongRecOn generalizing items with
  | ind bound induction =>
      by_cases inside : separator ∈ items
      · rcases List.eq_append_cons_of_mem inside with ⟨line, rest, split, plain⟩
        rw [split] at size ⊢
        rw [List.length_append, List.length_cons] at size
        exact next line rest plain (induction rest.length (by omega) rest rfl)
      · exact last items inside

/-! ## Pieces put together -/

section Pieces

variable {Item : Type} {separator : Item}

/-- What precedes the first separator, and what stands behind it. -/
theorem parts_of_separator {first : List Item} (firstPlain : separator ∉ first) :
    forall {second back other : List Item},
    separator ∉ second -> first ++ separator :: back = second ++ separator :: other ->
      first = second /\ back = other := by
  induction first with
  | nil =>
      intro second back other secondPlain same
      cases second with
      | nil => exact ⟨rfl, (List.cons.inj same).2⟩
      | cons head second => exact absurd ((List.cons.inj same).1 ▸ List.mem_cons_self) secondPlain
  | cons head first induction =>
      intro second back other secondPlain same
      cases second with
      | nil => exact absurd ((List.cons.inj same).1 ▸ List.mem_cons_self) firstPlain
      | cons otherHead second =>
          rcases List.cons.inj same with ⟨heads, tails⟩
          rcases induction (fun member => firstPlain (List.mem_cons_of_mem head member))
            (fun member => secondPlain (List.mem_cons_of_mem otherHead member)) tails with ⟨equal, behind⟩
          exact ⟨by rw [heads, equal], behind⟩

/-- Two rows of pieces that are put together alike are alike, where pieces that
may differ do not contain the separator. -/
theorem pieces_of_intercalate (pairs : List (List Item × List Item))
    (apart : forall pair, pair ∈ pairs -> pair.1 = pair.2 \/ (separator ∉ pair.1 /\ separator ∉ pair.2))
    (filled : Not (pairs = [])) {firstEnd secondEnd : List Item}
    (firstOnly : firstEnd = [] \/ firstEnd = [separator]) (secondOnly : secondEnd = [] \/ secondEnd = [separator])
    (same : [separator].intercalate (pairs.map Prod.fst) ++ firstEnd =
      [separator].intercalate (pairs.map Prod.snd) ++ secondEnd) :
    (forall pair, pair ∈ pairs -> pair.1 = pair.2) /\ firstEnd = secondEnd := by
  induction pairs with
  | nil => exact absurd rfl filled
  | cons pair rest induction =>
      have later (other : List Item × List Item) (member : other ∈ rest) :=
        apart other (List.mem_cons_of_mem pair member)
      rw [List.forall_mem_cons]
      cases rest with
      | nil =>
          rw [List.map_singleton, List.map_singleton, List.intercalate_singleton, List.intercalate_singleton] at same
          rcases apart pair List.mem_cons_self with equal | ⟨firstPlain, secondPlain⟩
          · rw [equal] at same
            exact ⟨⟨equal, nofun⟩, List.append_cancel_left same⟩
          · have ends : firstEnd = secondEnd := by
              rcases firstOnly with rfl | rfl <;> rcases secondOnly with rfl | rfl
              · rfl
              · rw [List.append_nil] at same
                exact absurd (same ▸ List.mem_append_right _ (List.mem_singleton_self separator)) firstPlain
              · rw [List.append_nil] at same
                exact absurd (same ▸ List.mem_append_right _ (List.mem_singleton_self separator)) secondPlain
              · rfl
            rw [ends] at same
            exact ⟨⟨List.append_cancel_right same, nofun⟩, ends⟩
      | cons next rest =>
          have firstMore : Not ((next :: rest).map Prod.fst = []) := List.cons_ne_nil _ _
          have secondMore : Not ((next :: rest).map Prod.snd = []) := List.cons_ne_nil _ _
          rw [List.map_cons (l := next :: rest), List.map_cons (l := next :: rest),
            List.intercalate_cons_of_ne_nil firstMore, List.intercalate_cons_of_ne_nil secondMore] at same
          simp only [List.append_assoc, List.cons_append] at same
          have parts : pair.1 = pair.2 /\ [separator].intercalate ((next :: rest).map Prod.fst) ++ firstEnd =
              [separator].intercalate ((next :: rest).map Prod.snd) ++ secondEnd := by
            rcases apart pair List.mem_cons_self with equal | ⟨firstPlain, secondPlain⟩
            · rw [equal] at same
              exact ⟨equal, (List.cons.inj (List.append_cancel_left same)).2⟩
            · exact parts_of_separator firstPlain secondPlain same
          have others := induction later (List.cons_ne_nil _ _) parts.2
          exact ⟨⟨parts.1, others.1⟩, others.2⟩

end Pieces

/-! ## Lines of a text -/

namespace Text

theorem replace_plain {text : Text} (plain : '\n' ∉ text) : replace ['\r', '\n'] ['\n'] text = text := by
  induction text with
  | nil => rfl
  | cons head tail induction =>
      have other : Not ((['\r', '\n'] : Text).isPrefixOf (head :: tail) = true) := by
        intro starts
        rcases List.isPrefixOf_iff_prefix.mp starts with ⟨rest, shape⟩
        exact plain (shape ▸ List.mem_cons_of_mem _ List.mem_cons_self)
      have later := induction fun member => plain (List.mem_cons_of_mem head member)
      rw [replace] at later ⊢
      rw [replaceFrom, if_neg other, later]

/-- A carriage return before a line feed goes. -/
theorem replace_cons {line : Text} (plain : '\n' ∉ line) (rest : Text) :
    replace ['\r', '\n'] ['\n'] (line ++ '\n' :: rest) =
      dropReturn line ++ '\n' :: replace ['\r', '\n'] ['\n'] rest := by
  induction line with
  | nil => rfl
  | cons head line induction =>
      have linePlain : '\n' ∉ line := fun member => plain (List.mem_cons_of_mem head member)
      have later := induction linePlain
      rw [replace] at later ⊢
      cases line with
      | nil =>
          by_cases isReturn : head = '\r'
          · rw [isReturn]
            rfl
          · have kept : dropReturn [head] = [head] := if_neg fun last => isReturn (Option.some.inj last)
            rw [List.cons_append, replaceFrom, if_neg (by simp [Ne.symm isReturn]), later, kept]
            rfl
      | cons second line =>
          have noFeed : Not (second = '\n') := fun same => linePlain (same ▸ List.mem_cons_self)
          have kept : dropReturn (head :: second :: line) = head :: dropReturn (second :: line) := by
            rw [dropReturn, dropReturn, List.getLast?_cons_cons]
            split <;> rfl
          rw [List.cons_append, replaceFrom, if_neg (by simp [Ne.symm noFeed]), later, kept, List.cons_append]

/-- The lines of a text without carriage returns before line feeds. -/
def readLines (text : Text) : List Text :=
  lines (replace ['\r', '\n'] ['\n'] text)

/-- Whether the last line is ended. -/
def endsLine (text : Text) : Bool :=
  ['\n'].isSuffixOf (replace ['\r', '\n'] ['\n'] text)

theorem lines_plain {line : Text} (plain : '\n' ∉ line) : lines line = if line.isEmpty then [] else [line] := by
  rw [lines, List.splitOn_eq_singleton plain]
  rfl

theorem readLines_plain {line : Text} (plain : '\n' ∉ line) :
    readLines line = if line.isEmpty then [] else [line] := by
  rw [readLines, replace_plain plain, lines_plain plain]

theorem not_mem_dropReturn {line : Text} (plain : '\n' ∉ line) : '\n' ∉ dropReturn line :=
  fun member => plain (mem_of_mem_dropReturn member)

theorem readLines_cons {line : Text} (plain : '\n' ∉ line) (rest : Text) :
    readLines (line ++ '\n' :: rest) = dropReturn (dropReturn line) :: readLines rest := by
  rw [readLines, replace_cons plain, lines_cons (not_mem_dropReturn plain)]
  rfl

theorem replace_eq_nil {text : Text} : replace ['\r', '\n'] ['\n'] text = [] <-> text = [] := by
  constructor
  · intro empty
    cases text with
    | nil => rfl
    | cons head tail =>
        rw [replace, replaceFrom] at empty
        split at empty
        · cases empty
        · cases empty
  · rintro rfl
    rfl

theorem isSuffixOf_singleton (character : Char) (text : Text) :
    [character].isSuffixOf text = decide (text.getLast? = some character) := by
  apply Bool.eq_iff_iff.mpr
  rw [List.isSuffixOf_iff_suffix, decide_eq_true_eq, List.singleton_suffix_iff_getLast?_eq_some]

theorem endsLine_plain {line : Text} (plain : '\n' ∉ line) : endsLine line = false := by
  rw [endsLine, replace_plain plain, isSuffixOf_singleton]
  exact decide_eq_false fun last => plain (List.mem_of_getLast? last)

theorem endsLine_cons {line : Text} (plain : '\n' ∉ line) (rest : Text) :
    endsLine (line ++ '\n' :: rest) = (rest.isEmpty || endsLine rest) := by
  rw [endsLine, endsLine, replace_cons plain, isSuffixOf_singleton, isSuffixOf_singleton]
  cases rest with
  | nil => simp [replace, replaceFrom]
  | cons head tail =>
      have filled : Not (replace ['\r', '\n'] ['\n'] (head :: tail) = []) :=
        fun empty => List.cons_ne_nil head tail (replace_eq_nil.mp empty)
      rcases List.exists_cons_of_ne_nil filled with ⟨first, others, shape⟩
      rw [shape, List.getLast?_append_cons, List.getLast?_cons_cons]
      rfl

/-- The lines of a text as they stand, each with whether a line feed ends it. -/
def rawLines (text : Text) : List (Text × Bool) :=
  let parts := text.splitOn '\n'
  let last := parts.getLast?.getD []
  parts.dropLast.map (fun part => (part, true)) ++ (if last.isEmpty then [] else [(last, false)])

theorem rawLines_plain {line : Text} (plain : '\n' ∉ line) :
    rawLines line = if line.isEmpty then [] else [(line, false)] := by
  rw [rawLines, List.splitOn_eq_singleton plain]
  rfl

theorem rawLines_cons {line : Text} (plain : '\n' ∉ line) (rest : Text) :
    rawLines (line ++ '\n' :: rest) = (line, true) :: rawLines rest := by
  rw [rawLines, rawLines, List.splitOn_append_cons_self_of_not_mem plain]
  cases behind : rest.splitOn '\n' with
  | nil => exact absurd behind (List.splitOn_ne_nil '\n' rest)
  | cons next others =>
      simp only [List.dropLast_cons_cons, List.map_cons, List.getLast?_cons_cons, List.cons_append]

/-- A text is its lines. -/
theorem flatMap_rawLines (text : Text) :
    (rawLines text).flatMap (fun line => line.1 ++ if line.2 then ['\n'] else []) = text := by
  refine @separatorInduction _ _ '\n'
    (fun text => (rawLines text).flatMap (fun line => line.1 ++ if line.2 then ['\n'] else []) = text)
    ?_ ?_ text
  · intro line plain
    rw [rawLines_plain plain]
    split
    · next empty => exact (List.isEmpty_iff.mp empty).symm
    · rw [List.flatMap_singleton]
      exact List.append_nil line
  · intro line rest plain induction
    rw [rawLines_cons plain, List.flatMap_cons, induction, if_pos rfl, List.append_assoc]
    rfl

theorem rawLines_inj {first second : Text} : rawLines first = rawLines second <-> first = second := by
  constructor
  · intro same
    rw [← flatMap_rawLines first, same, flatMap_rawLines]
  · rintro rfl
    rfl

/-- What is read of a line. -/
def readBack (line : Text × Bool) : Text :=
  if line.2 then dropReturn (dropReturn line.1) else line.1

theorem readLines_eq (text : Text) : readLines text = (rawLines text).map readBack := by
  refine @separatorInduction _ _ '\n'
    (fun text => readLines text = (rawLines text).map readBack) ?_ ?_ text
  · intro line plain
    rw [readLines_plain plain, rawLines_plain plain]
    split <;> rfl
  · intro line rest plain induction
    rw [readLines_cons plain, rawLines_cons plain, induction]
    rfl

theorem endsLine_eq (text : Text) : endsLine text = (rawLines text).getLast?.any Prod.snd := by
  refine @separatorInduction _ _ '\n'
    (fun text => endsLine text = (rawLines text).getLast?.any Prod.snd) ?_ ?_ text
  · intro line plain
    rw [endsLine_plain plain, rawLines_plain plain]
    split <;> rfl
  · intro line rest plain induction
    rw [endsLine_cons plain, rawLines_cons plain, induction]
    cases rest with
    | nil => rfl
    | cons head tail =>
        have more : Not (rawLines (head :: tail) = []) := by
          intro empty
          have whole := flatMap_rawLines (head :: tail)
          rw [empty] at whole
          cases whole
        rcases List.exists_cons_of_ne_nil more with ⟨next, others, shape⟩
        rw [shape, List.getLast?_cons_cons]
        rfl

/-- Only the last line can be without a line feed, and it is not blank then. -/
theorem rawLines_ended {text : Text} {front : List (Text × Bool)} {last : Text × Bool} :
    rawLines text = front ++ [last] ->
      (forall line, line ∈ front -> line.2 = true) /\ (last.1 = [] -> last.2 = true) := by
  refine @separatorInduction _ _ '\n'
    (fun text => forall front, rawLines text = front ++ [last] ->
      (forall line, line ∈ front -> line.2 = true) /\ (last.1 = [] -> last.2 = true)) ?_ ?_ text front
  · intro line plain front shape
    rw [rawLines_plain plain] at shape
    split at shape
    · cases front <;> cases shape
    · next filled =>
        cases front with
        | nil =>
            rw [← (List.cons.inj shape).1]
            refine ⟨nofun, fun empty => ?_⟩
            dsimp only at empty
            rw [empty] at filled
            exact absurd rfl filled
        | cons first front =>
            have none_left := (List.cons.inj shape).2
            cases front <;> cases none_left
  · intro line rest plain induction front shape
    rw [rawLines_cons plain] at shape
    cases front with
    | nil =>
        rw [← (List.cons.inj shape).1]
        exact ⟨nofun, fun _ => rfl⟩
    | cons first front =>
        rcases List.cons.inj shape with ⟨head, later⟩
        rcases induction front later with ⟨ended, blank⟩
        rw [← head]
        exact ⟨List.forall_mem_cons.mpr ⟨rfl, ended⟩, blank⟩

/-- The lines of a text that is put together with line feeds between lines. -/
theorem rawLines_intercalate {front : List Text} (plain : forall line, line ∈ front -> '\n' ∉ line) (last : Text) :
    rawLines (['\n'].intercalate (front ++ [last])) = front.map (fun line => (line, true)) ++ rawLines last := by
  induction front with
  | nil => rw [List.nil_append, List.intercalate_singleton]; rfl
  | cons first front induction =>
      have more : Not (front ++ [last] = []) := List.append_ne_nil_of_right_ne_nil _ (List.cons_ne_nil _ _)
      rw [List.cons_append, List.intercalate_cons_of_ne_nil more, List.append_assoc, List.singleton_append,
        rawLines_cons (plain first List.mem_cons_self),
        induction fun line member => plain line (List.mem_cons_of_mem first member), List.map_cons, List.cons_append]

end Text

/-! ## Lines of bytes -/

/-- A byte of the first 128 is read as its character wherever it stands. -/
theorem lossyFrom_ascii {byte : UInt8} (ascii : byte.toNat < 0x80) (back front : Bytes) :
    forall state, Continues state ->
      lossyFrom state (front ++ byte :: back) =
        lossyFrom state front ++ Char.ofNat byte.toNat :: lossyFrom none back := by
  have here : lossyFrom none (byte :: back) = Char.ofNat byte.toNat :: lossyFrom none back := by
    rw [lossyFrom, firstByte, if_pos ascii]
    rfl
  induction front with
  | nil =>
      intro state continues
      cases state with
      | none => exact here
      | some begun =>
          have outside : Not (begun.lower <= byte.toNat /\ byte.toNat <= begun.upper) := by
            rintro ⟨low, _⟩
            have least := continues.1
            omega
          rw [List.nil_append, lossyFrom_anew _ outside, here]
          rfl
  | cons first front induction =>
      intro state continues
      have fresh : lossyFrom none (first :: (front ++ byte :: back)) =
          lossyFrom none (first :: front) ++ Char.ofNat byte.toNat :: lossyFrom none back := by
        rcases firstByte_cases first.toNat with ⟨_, one⟩ | ⟨begun, leads⟩ | replaced
        · rw [lossyFrom, lossyFrom, one, induction none trivial, List.append_assoc]
        · rw [lossyFrom_leads leads, lossyFrom_leads leads, induction _ leads.continues]
        · rw [lossyFrom, lossyFrom, replaced, induction none trivial, List.append_assoc]
      rw [List.cons_append]
      cases state with
      | none => exact fresh
      | some begun =>
          by_cases within : begun.lower <= first.toNat /\ first.toNat <= begun.upper
          · have taken : (decide (begun.lower <= first.toNat) && decide (first.toNat <= begun.upper)) = true := by
              simp [within]
            rw [lossyFrom, lossyFrom, if_pos taken, if_pos taken]
            dsimp only
            by_cases last : begun.missing <= 1
            · rw [if_pos last, if_pos last, induction none trivial, List.cons_append]
            · rw [if_neg last, if_neg last]
              exact induction (some _) ⟨Nat.le_refl _, Nat.le_refl _⟩
          · rw [lossyFrom_anew _ within, lossyFrom_anew _ within, fresh, List.cons_append]

theorem fromUtf8Lossy_feed (front back : Bytes) :
    fromUtf8Lossy (front ++ 10 :: back) = fromUtf8Lossy front ++ '\n' :: fromUtf8Lossy back :=
  lossyFrom_ascii (by decide) back front none trivial

theorem fromUtf8Lossy_return (front : Bytes) :
    fromUtf8Lossy (front ++ [13]) = fromUtf8Lossy front ++ ['\r'] :=
  lossyFrom_ascii (by decide) [] front none trivial

theorem fromUtf8Lossy_encodeUtf8 (text : Text) : fromUtf8Lossy (encodeUtf8 text) = text := by
  have read := lossyFrom_text text []
  rw [List.append_nil] at read
  rw [fromUtf8Lossy, read]
  exact List.append_nil text

theorem encodeUtf8_intercalate (lines : List Text) :
    encodeUtf8 (['\n'].intercalate lines) = [10].intercalate (lines.map encodeUtf8) := by
  induction lines with
  | nil => rfl
  | cons first rest induction =>
      cases rest with
      | nil =>
          rw [List.map_singleton, List.intercalate_singleton, List.intercalate_singleton]
      | cons second rest =>
          have more : Not ((second :: rest).map encodeUtf8 = []) := List.cons_ne_nil _ _
          rw [List.intercalate_cons_cons, encodeUtf8_append, encodeUtf8_append, induction,
            List.map_cons (l := second :: rest), List.intercalate_cons_of_ne_nil more]
          rfl

theorem not_mem_fromUtf8Lossy {line : Bytes} (plain : 10 ∉ line) : '\n' ∉ fromUtf8Lossy line := by
  intro member
  rcases List.append_of_mem member with ⟨front, back, shape⟩
  have shown : ['\n'] <:+: fromUtf8Lossy line := ⟨front, back, by rw [shape, List.append_assoc]; rfl⟩
  have inside : encodeUtf8 ['\n'] <:+: line := bytes_of_shown (by decide) shown
  exact plain (inside.subset (by decide))

theorem fromUtf8Lossy_eq_nil {bytes : Bytes} : fromUtf8Lossy bytes = [] <-> bytes = [] := by
  constructor
  · intro empty
    rcases readAs_lossyFrom bytes none [] rfl with ⟨chunks, read⟩
    have none_read := read.characters
    change fromUtf8Lossy bytes = _ at none_read
    rw [empty] at none_read
    have whole := read.whole
    rw [List.map_eq_nil_iff.mp none_read.symm] at whole
    exact whole.symm
  · rintro rfl
    rfl

/-- A carriage return at the end of what is read stands at the end of the bytes. -/
theorem getLast?_of_return {bytes : Bytes} (last : (fromUtf8Lossy bytes).getLast? = some '\r') :
    bytes.getLast? = some 13 := by
  rcases readAs_lossyFrom bytes none [] rfl with ⟨chunks, read⟩
  have characters := read.characters
  change fromUtf8Lossy bytes = _ at characters
  rw [characters, List.getLast?_map, Option.map_eq_some_iff] at last
  rcases last with ⟨chunk, isLast, isReturn⟩
  have encoded := read.encoded chunk (List.mem_of_getLast? isLast) (by rw [isReturn]; decide)
  rcases List.getLast?_eq_some_iff.mp isLast with ⟨front, shape⟩
  have whole := read.whole
  rw [List.nil_append] at whole
  rw [← whole, shape, List.map_append, List.flatten_append, List.map_singleton, List.flatten_singleton,
    encoded, isReturn]
  exact List.getLast?_concat

/-- Drop a carriage return at the end. -/
def dropByteReturn (line : Bytes) : Bytes :=
  if line.getLast? = some 13 then line.dropLast else line

theorem mem_of_mem_dropByteReturn {line : Bytes} {byte : UInt8} (inside : byte ∈ dropByteReturn line) :
    byte ∈ line := by
  rw [dropByteReturn] at inside
  split at inside
  · exact List.dropLast_subset line inside
  · exact inside

theorem fromUtf8Lossy_dropByteReturn (line : Bytes) :
    fromUtf8Lossy (dropByteReturn line) = Text.dropReturn (fromUtf8Lossy line) := by
  rw [dropByteReturn, Text.dropReturn]
  split
  · next last =>
      rcases List.getLast?_eq_some_iff.mp last with ⟨front, shape⟩
      rw [shape, List.dropLast_concat, fromUtf8Lossy_return, if_pos List.getLast?_concat, List.dropLast_concat]
  · next other => rw [if_neg fun last => other (getLast?_of_return last)]

/-- The lines of a file, each with whether a line feed ends it. -/
def byteLines (bytes : Bytes) : List (Bytes × Bool) :=
  let parts := bytes.splitOn 10
  let last := parts.getLast?.getD []
  parts.dropLast.map (fun part => (dropByteReturn part, true)) ++ (if last.isEmpty then [] else [(last, false)])

theorem byteLines_plain {line : Bytes} (plain : 10 ∉ line) :
    byteLines line = if line.isEmpty then [] else [(line, false)] := by
  rw [byteLines, List.splitOn_eq_singleton plain]
  rfl

theorem byteLines_cons {line : Bytes} (plain : 10 ∉ line) (rest : Bytes) :
    byteLines (line ++ 10 :: rest) = (dropByteReturn line, true) :: byteLines rest := by
  rw [byteLines, byteLines, List.splitOn_append_cons_self_of_not_mem plain]
  cases behind : rest.splitOn 10 with
  | nil => exact absurd behind (List.splitOn_ne_nil 10 rest)
  | cons next others =>
      simp only [List.dropLast_cons_cons, List.map_cons, List.getLast?_cons_cons, List.cons_append]

theorem byteLines_eq_nil {bytes : Bytes} : byteLines bytes = [] <-> bytes = [] := by
  constructor
  · intro none_left
    by_cases inside : 10 ∈ bytes
    · rcases List.eq_append_cons_of_mem inside with ⟨line, rest, split, plain⟩
      rw [split, byteLines_cons plain] at none_left
      cases none_left
    · rw [byteLines_plain inside] at none_left
      split at none_left
      · next empty => exact List.isEmpty_iff.mp empty
      · cases none_left
  · rintro rfl
    rfl

/-- No line has a line feed in it. -/
theorem plain_of_mem_byteLines (bytes : Bytes) : forall line, line ∈ byteLines bytes -> 10 ∉ line.1 := by
  refine @separatorInduction _ _ 10
    (fun bytes => forall line, line ∈ byteLines bytes -> 10 ∉ line.1) ?_ ?_ bytes
  · intro line plain other member
    rw [byteLines_plain plain] at member
    split at member
    · cases member
    · rw [List.mem_singleton.mp member]
      exact plain
  · intro line rest plain induction other member
    rw [byteLines_cons plain] at member
    rcases List.mem_cons.mp member with here | later
    · rw [here]
      exact fun inside => plain (mem_of_mem_dropByteReturn inside)
    · exact induction other later

/-- A last line that is blank is ended. -/
theorem blank_is_ended {bytes : Bytes} {ended : Bool} :
    (byteLines bytes).getLast? = some ([], ended) -> Not (ended = false) := by
  refine @separatorInduction _ _ 10
    (fun bytes => (byteLines bytes).getLast? = some ([], ended) -> Not (ended = false)) ?_ ?_ bytes
  · intro line plain last
    rw [byteLines_plain plain] at last
    split at last
    · cases last
    · next filled =>
        rw [List.getLast?_singleton] at last
        rw [(Prod.mk.inj (Option.some.inj last)).1] at filled
        exact absurd rfl filled
  · intro line rest plain induction last
    rw [byteLines_cons plain] at last
    cases more : byteLines rest with
    | nil =>
        rw [more, List.getLast?_singleton] at last
        rw [← (Prod.mk.inj (Option.some.inj last)).2]
        decide
    | cons next others =>
        rw [more, List.getLast?_cons_cons] at last
        exact induction (more ▸ last)

/-- A line as it is read: a second carriage return goes before a line feed. -/
def lineText (line : Bytes × Bool) : Text :=
  if line.2 then Text.dropReturn (fromUtf8Lossy line.1) else fromUtf8Lossy line.1

theorem plain_lineText {line : Bytes × Bool} (plain : 10 ∉ line.1) : '\n' ∉ lineText line := by
  rw [lineText]
  split
  · exact Text.not_mem_dropReturn (not_mem_fromUtf8Lossy plain)
  · exact not_mem_fromUtf8Lossy plain

/-- The lines of the text that is read from bytes are the lines of the bytes. -/
theorem readLines_fromUtf8Lossy (bytes : Bytes) :
    Text.readLines (fromUtf8Lossy bytes) = (byteLines bytes).map lineText := by
  refine @separatorInduction _ _ 10
    (fun bytes => Text.readLines (fromUtf8Lossy bytes) = (byteLines bytes).map lineText) ?_ ?_ bytes
  · intro line plain
    rw [Text.readLines_plain (not_mem_fromUtf8Lossy plain), byteLines_plain plain]
    by_cases empty : line = []
    · rw [empty]
      rfl
    · rw [if_neg fun isEmpty => empty (List.isEmpty_iff.mp isEmpty),
        if_neg fun isEmpty => empty (fromUtf8Lossy_eq_nil.mp (List.isEmpty_iff.mp isEmpty))]
      rfl
  · intro line rest plain induction
    rw [fromUtf8Lossy_feed, Text.readLines_cons (not_mem_fromUtf8Lossy plain), byteLines_cons plain, induction,
      ← fromUtf8Lossy_dropByteReturn]
    rfl

theorem endsLine_fromUtf8Lossy (bytes : Bytes) :
    Text.endsLine (fromUtf8Lossy bytes) = (byteLines bytes).getLast?.any Prod.snd := by
  refine @separatorInduction _ _ 10
    (fun bytes => Text.endsLine (fromUtf8Lossy bytes) = (byteLines bytes).getLast?.any Prod.snd) ?_ ?_ bytes
  · intro line plain
    rw [Text.endsLine_plain (not_mem_fromUtf8Lossy plain), byteLines_plain plain]
    split <;> rfl
  · intro line rest plain induction
    rw [fromUtf8Lossy_feed, Text.endsLine_cons (not_mem_fromUtf8Lossy plain), byteLines_cons plain, induction]
    cases lines : byteLines rest with
    | nil =>
        have empty : rest = [] := byteLines_eq_nil.mp lines
        rw [empty]
        rfl
    | cons next others =>
        have filled : Not (rest = []) := fun empty =>
          List.cons_ne_nil _ _ (lines.symm.trans (byteLines_eq_nil.mpr empty))
        have read : (fromUtf8Lossy rest).isEmpty = false :=
          Bool.eq_false_iff.mpr fun empty => filled (fromUtf8Lossy_eq_nil.mp (List.isEmpty_iff.mp empty))
        rw [read, Bool.false_or, List.getLast?_cons_cons]

end Foundations
end Agapornis
