import Agapornis.Runtime.ExecOutput
import Agapornis.Storage.ContainerWords
import Mathlib.Algebra.Order.BigOperators.Group.List
import Mathlib.Algebra.Order.Ring.Nat

namespace Agapornis
namespace Storage

open Foundations Agapornis.Core
open Agapornis.Console (LogOutput)
open Agapornis.Runtime (ExecEngine Executed capture exec exec_eq_ok stdoutPart)

/-!
# Listing a directory in a container

A shell script goes through the entries of the directory and prints one line
for each, its name, type, size and time with tabs between.  The output is cut
into lines and tabs again.  Names are bytes other than the slash and zero, so
tabs and line feeds may be among them, and they need not be UTF-8.
-/

structure FileItem where
  name : Text
  directory : Bool
  size : Int
  modified : Text
  deriving DecidableEq, Repr

def maxDirectoryEntries : Nat := 10000

/-- One line of the output; a line with fewer than four parts is passed over. -/
def decodeLine (line : Text) : Option FileItem :=
  match line.splitOn '\t' with
  | name :: kind :: size :: modified :: _ =>
      some
        { name
          directory := kind == "d".toList
          size := (Text.parseSigned 64 size).getD 0
          modified }
  | _ => none

def decodeListing (raw : Text) : List FileItem :=
  (Text.lines raw).filterMap decodeLine

/-- The script that is run for a target. -/
def listCommand (target : Text) : Text :=
  "target=".toList ++ shellQuote target ++
    ("; [ -d \"$target\" ] || exit 44; " ++
      "for f in \"$target\"/* \"$target\"/.[!.]* \"$target\"/..?*; do [ -e \"$f\" ] || continue; " ++
      "name=$\x7bf##*/\x7d; if [ -d \"$f\" ]; then type=d; size=0; " ++
      "else type=f; size=$(wc -c < \"$f\" 2>/dev/null || echo 0); fi; " ++
      "mod=$(date -r \"$f\" -u +%Y-%m-%dT%H:%M:%SZ 2>/dev/null || echo \"\"); " ++
      "printf '%s\\t%s\\t%s\\t%s\\n' \"$name\" \"$type\" \"$size\" \"$mod\"; done").toList

/-- Listing a directory in a container, the execution of commands being given. -/
def listContainer (exec : Text -> Except Failure Text) (root : Root) (path : Text) :
    Except Failure (List FileItem) := do
  let clean := if (cleanPath path).isEmpty then ".".toList else cleanPath path
  let target <- Paths.containerPath root.container clean
  let raw <- exec (listCommand (Paths.slashed target))
  refuseIf (decide (maxDirectoryEntries < (decodeListing raw).length))
    s!"Directory contains more than {maxDirectoryEntries} entries."
  .ok (decodeListing raw)

/-- What is listed was read from the output of the command for the confined path,
and is within the limit. -/
theorem listContainer_eq_ok {exec : Text -> Except Failure Text} {root : Root} {path target : Text}
    (confined : ConfinedText root path target) {items : List FileItem} :
    listContainer exec root path = .ok items <->
      Exists fun raw => exec (listCommand target) = .ok raw /\ items = decodeListing raw /\
        items.length <= maxDirectoryEntries := by
  rcases confined with ⟨joined, accepted, rfl⟩
  have clean : Paths.containerPath root.container
      (if (cleanPath path).isEmpty then ".".toList else cleanPath path) = .ok joined := by
    rw [<- containerPath_cleanPath] at accepted
    split
    · next empty =>
        rw [List.isEmpty_iff.mp empty] at accepted
        exact accepted
    · exact accepted
  constructor
  · intro listed
    rcases bind_eq_ok.mp listed with ⟨found, same, ran⟩
    rcases bind_eq_ok.mp ran with ⟨raw, executed, ran⟩
    rcases bind_eq_ok.mp ran with ⟨_, few, done⟩
    cases clean.symm.trans same
    cases done
    exact ⟨raw, executed, rfl, Nat.le_of_not_lt (of_decide_eq_false (refuseIf_eq_ok.mp few))⟩
  · rintro ⟨raw, executed, rfl, few⟩
    exact bind_eq_ok.mpr ⟨joined, clean, bind_eq_ok.mpr ⟨raw, executed, bind_eq_ok.mpr
      ⟨(), refuseIf_eq_ok.mpr (decide_eq_false (Nat.not_lt.mpr few)), rfl⟩⟩⟩

/-! ## What the script prints -/

def dotByte : UInt8 := 46
def slashByte : UInt8 := 47
def tabByte : UInt8 := 9
def feedByte : UInt8 := 10

/-- A file or a directory in the listed one.  The shell need not reach it (the
test `-e` fails for a link that leads nowhere, and without the right to search
the directory or to list it) nor be able to read it; the time is what `date`
prints of it. -/
structure DirEntry where
  name : Bytes
  directory : Bool
  reached : Bool := true
  readable : Bool := true
  size : Nat
  modified : Text
  nonempty : name ≠ []
  no_slash : slashByte ∉ name
  no_zero : 0 ∉ name
  not_dot : name ≠ [dotByte]
  not_dots : name ≠ [dotByte, dotByte]
  size_fits : size < 2 ^ 63
  modified_plain : '\t' ∉ modified /\ '\n' ∉ modified /\ '\r' ∉ modified

namespace DirEntry

/-- The patterns `*`, `.[!.]*` and `..?*`; the first leaves names with a dot in front alone. -/
def plainName : Bytes -> Bool
  | first :: _ => first != dotByte
  | [] => true

def hiddenName : Bytes -> Bool
  | first :: second :: _ => first == dotByte && second != dotByte
  | _ => false

def dottedName : Bytes -> Bool
  | first :: second :: _ :: _ => first == dotByte && second == dotByte
  | _ => false

/-- The size the script prints: of a file that cannot be read `wc` has none. -/
def printedSize (entry : DirEntry) : Nat :=
  if entry.directory then 0 else if entry.readable then entry.size else 0

/-- The size of a file; that of a directory counts as zero. -/
def trueSize (entry : DirEntry) : Nat :=
  if entry.directory then 0 else entry.size

/-- What stands behind the name in the line of an entry. -/
def details (entry : DirEntry) : Text :=
  (if entry.directory then "d".toList else "f".toList) ++
    '\t' :: (Text.decimal entry.printedSize ++ '\t' :: entry.modified)

def line (entry : DirEntry) : Bytes :=
  entry.name ++ encodeUtf8 ('\t' :: entry.details ++ ['\n'])

/-- The entries in the order in which the three patterns find them. -/
def found (entries : List DirEntry) : List DirEntry :=
  entries.filter (fun entry => plainName entry.name) ++
    (entries.filter (fun entry => hiddenName entry.name) ++
      entries.filter (fun entry => dottedName entry.name))

/-- What the script prints for a directory with the given entries, in the order of
the shell; an entry that it does not reach is passed over. -/
def listing (entries : List DirEntry) : Bytes :=
  ((found entries).filter reached).flatMap line

/-- The name, kind and size that the line of an entry states. -/
def stated (entry : DirEntry) : Bytes × Bool × Int :=
  (entry.name, entry.directory, entry.printedSize)

/-- The true name, kind and size of an entry. -/
def told (entry : DirEntry) : Bytes × Bool × Int :=
  (entry.name, entry.directory, entry.trueSize)

/-- An entry that the shell reaches, and reads unless there is nothing to read. -/
def Seen (entry : DirEntry) : Prop :=
  entry.reached = true /\ (entry.directory = true \/ entry.readable = true \/ entry.size = 0)

/-- A name that the output can carry. -/
def Carried (entry : DirEntry) : Prop :=
  (fromUtf8 entry.name).isSome = true /\ tabByte ∉ entry.name /\ feedByte ∉ entry.name

end DirEntry

/-- The name, kind and size which an item states. -/
def FileItem.told (item : FileItem) : Bytes × Bool × Int :=
  (encodeUtf8 item.name, item.directory, item.size)

namespace DirEntry

/-- What the second pattern finds is not found by the first. -/
theorem hidden_not_plain (name : Bytes) :
    hiddenName name = (hiddenName name && !plainName name) := by
  rcases name with _ | ⟨first, _ | ⟨second, rest⟩⟩
  · rfl
  · rfl
  · simp only [hiddenName, plainName, bne]
    cases first == dotByte <;> cases second == dotByte <;> rfl

/-- The third pattern finds what the first two do not. -/
theorem dotted_eq (entry : DirEntry) :
    dottedName entry.name = (!hiddenName entry.name && !plainName entry.name) := by
  have nonempty := entry.nonempty
  have notDot := entry.not_dot
  have notDots := entry.not_dots
  generalize entry.name = name at *
  rcases name with _ | ⟨first, _ | ⟨second, _ | ⟨third, rest⟩⟩⟩
  · exact absurd rfl nonempty
  · have other : (first == dotByte) = false := beq_eq_false_iff_ne.mpr (fun same => notDot (by rw [same]))
    simp only [hiddenName, plainName, dottedName, bne, other, Bool.not_false, Bool.not_true, Bool.and_false]
  · simp only [hiddenName, plainName, dottedName, bne]
    cases isDot : first == dotByte with
    | false => rfl
    | true =>
        have other : (second == dotByte) = false := by
          apply beq_eq_false_iff_ne.mpr
          intro same
          exact notDots (by rw [same, eq_of_beq isDot])
        rw [other]
        rfl
  · simp only [hiddenName, plainName, dottedName, bne]
    cases first == dotByte <;> cases second == dotByte <;> rfl

/-- Each name is found by exactly one of the patterns. -/
theorem found_perm (entries : List DirEntry) : (found entries).Perm entries := by
  have hidden : entries.filter (fun entry => hiddenName entry.name) =
      (entries.filter (fun entry => !plainName entry.name)).filter (fun entry => hiddenName entry.name) := by
    rw [List.filter_filter]
    exact List.filter_congr (fun entry _ => hidden_not_plain entry.name)
  have dotted : entries.filter (fun entry => dottedName entry.name) =
      (entries.filter (fun entry => !plainName entry.name)).filter (fun entry => !hiddenName entry.name) := by
    rw [List.filter_filter]
    exact List.filter_congr (fun entry _ => dotted_eq entry)
  rw [found, hidden, dotted]
  exact ((List.filter_append_perm _ _).append_left _).trans (List.filter_append_perm _ entries)

/-! ## Reading it again -/

/-- What stands behind a name is one line. -/
theorem details_plain (entry : DirEntry) {character : Char} (notDigit : character.isDigit = false)
    (notTab : character ≠ '\t') (notKind : character ∉ ['d', 'f']) (plain : character ∉ entry.modified) :
    character ∉ entry.details := by
  intro member
  rw [details, List.mem_append, List.mem_cons, List.mem_append, List.mem_cons] at member
  rcases member with kind | tab | size | tab | time
  · apply notKind
    split at kind
    · rw [List.mem_singleton.mp kind]
      exact List.mem_cons_self
    · rw [List.mem_singleton.mp kind]
      exact List.mem_cons_of_mem _ List.mem_cons_self
  · exact notTab tab
  · exact Text.not_mem_decimal notDigit entry.printedSize size
  · exact notTab tab
  · exact plain time

/-- The line of an entry with a text as its name, cut into its parts. -/
theorem splitOn_details (entry : DirEntry) {name : Text} (plain : '\t' ∉ name) :
    (name ++ '\t' :: entry.details).splitOn '\t' =
      [name, if entry.directory then "d".toList else "f".toList,
        Text.decimal entry.printedSize, entry.modified] := by
  have kind : '\t' ∉ (if entry.directory then "d".toList else "f".toList) := by
    split <;> decide
  rw [List.splitOn_append_cons_self, List.splitOn_eq_singleton plain, details]
  rw [List.splitOn_append_cons_self, List.splitOn_eq_singleton kind]
  rw [List.splitOn_append_cons_self, List.splitOn_eq_singleton (Text.not_mem_decimal (by decide) _)]
  rw [List.splitOn_eq_singleton entry.modified_plain.1]
  rfl

/-- The item that is read from the line of an entry states what is true of it. -/
theorem decodeLine_details (entry : DirEntry) {name : Text} (plain : '\t' ∉ name)
    (encoded : encodeUtf8 name = entry.name) :
    Exists fun item => decodeLine (name ++ '\t' :: entry.details) = some item /\
      item.told = entry.stated := by
  rw [decodeLine, splitOn_details entry plain]
  refine ⟨_, rfl, ?_⟩
  have size : Text.parseSigned 64 (Text.decimal entry.printedSize) = some (entry.printedSize : Int) := by
    have fits : entry.printedSize < 2 ^ 63 := by
      rw [printedSize]
      split
      · exact Nat.two_pow_pos 63
      · split
        · exact entry.size_fits
        · exact Nat.two_pow_pos 63
    have low : -((2 ^ (64 - 1) : Nat) : Int) <= entry.printedSize := by omega
    have high : (entry.printedSize : Int) < (2 ^ (64 - 1) : Nat) := by exact_mod_cast fits
    exact Text.parseSigned_signedDecimal low high
  have kind : ((if entry.directory then "d".toList else "f".toList) == "d".toList) = entry.directory := by
    cases entry.directory <;> decide
  rw [FileItem.told, stated, encoded, kind, size]
  rfl

theorem dropReturn_details (entry : DirEntry) (name : Text) :
    Text.dropReturn (name ++ '\t' :: entry.details) = name ++ '\t' :: entry.details := by
  rw [Text.dropReturn, if_neg]
  intro last
  have inside : '\r' ∈ '\t' :: entry.details := by
    rw [List.getLast?_append] at last
    have some : (('\t' :: entry.details).getLast?).isSome = true := by simp
    rw [Option.or_of_isSome some] at last
    exact List.mem_of_getLast? last
  rcases List.mem_cons.mp inside with tab | behind
  · exact absurd tab (by decide)
  · exact details_plain entry (by decide) (by decide) (by decide) entry.modified_plain.2.2 behind

/-- Entries with names that the output can carry are read again. -/
theorem decodeListing_lines {entries : List DirEntry}
    (carried : forall entry, entry ∈ entries -> entry.Carried) :
    Exists fun raw => encodeUtf8 raw = entries.flatMap line /\
      (decodeListing raw).map FileItem.told = entries.map stated := by
  induction entries with
  | nil => exact ⟨[], rfl, rfl⟩
  | cons entry rest induction =>
      rcases induction (fun other member => carried other (List.mem_cons_of_mem entry member)) with
        ⟨raw, encoded, decoded⟩
      rcases carried entry List.mem_cons_self with ⟨text, noTab, noFeed⟩
      rcases Option.isSome_iff_exists.mp text with ⟨name, read⟩
      have bytes := fromUtf8_eq_some.mp read
      have plain : '\t' ∉ name := by
        intro member
        apply noTab
        rw [<- bytes]
        exact (@mem_encodeUtf8 name '\t' (by decide)).mpr member
      have oneLine : '\n' ∉ name ++ '\t' :: entry.details := by
        rw [List.mem_append, List.mem_cons, not_or, not_or]
        refine ⟨?_, by decide, ?_⟩
        · intro member
          apply noFeed
          rw [<- bytes]
          exact (@mem_encodeUtf8 name '\n' (by decide)).mpr member
        · exact details_plain entry (by decide) (by decide) (by decide) entry.modified_plain.2.1
      rcases decodeLine_details entry plain bytes with ⟨item, decodes, same⟩
      refine ⟨(name ++ '\t' :: entry.details) ++ '\n' :: raw, ?_, ?_⟩
      · have lineBytes : entry.line = encodeUtf8 (name ++ '\t' :: entry.details ++ ['\n']) := by
          rw [List.append_assoc, encodeUtf8_append name, bytes]
          rfl
        have whole : (name ++ '\t' :: entry.details) ++ '\n' :: raw =
            (name ++ '\t' :: entry.details ++ ['\n']) ++ raw := by
          rw [List.append_assoc _ ['\n'] raw]
          rfl
        rw [whole, encodeUtf8_append, encoded, <- lineBytes, List.flatMap_cons]
      · rw [decodeListing, Text.lines_cons oneLine, dropReturn_details, List.filterMap_cons, decodes,
          List.map_cons, same, List.map_cons, <- decoded]
        rfl

/-- The name of an item that is read from an output has no tab and no line feed in it. -/
theorem decodeListing_name {raw : Text} {item : FileItem} (member : item ∈ decodeListing raw) :
    '\t' ∉ item.name /\ '\n' ∉ item.name := by
  rcases List.mem_filterMap.mp member with ⟨line, isLine, decoded⟩
  rw [decodeLine] at decoded
  split at decoded
  · next name kind size modified rest parts =>
      cases decoded
      have isPart : name ∈ line.splitOn '\t' := by
        rw [parts]
        exact List.mem_cons_self
      constructor
      · exact fun tab => (mem_splitOn isPart tab).2 rfl
      · exact fun feed => not_mem_of_mem_lines isLine (mem_splitOn isPart feed).1
  · cases decoded

/-! ## The sizes -/

theorem printedSize_le (entry : DirEntry) : entry.printedSize <= entry.trueSize := by
  unfold printedSize trueSize
  split
  · exact le_rfl
  · split
    · exact le_rfl
    · exact Nat.zero_le _

/-- Numbers of which none is greater than its fellow, with the same sum, are the same. -/
theorem eq_of_sum_eq {Item : Type} {less more : Item -> Nat} {items : List Item}
    (below : forall item, less item <= more item) (same : (items.map less).sum = (items.map more).sum) :
    forall item, item ∈ items -> less item = more item := by
  have sums : forall items : List Item, (items.map less).sum <= (items.map more).sum := by
    intro items
    exact List.sum_le_sum fun item _ => below item
  induction items with
  | nil => exact nofun
  | cons first rest induction =>
      rw [List.map_cons, List.map_cons, List.sum_cons, List.sum_cons] at same
      have one := below first
      have others := sums rest
      intro item member
      rcases List.mem_cons.mp member with here | later
      · rw [here]
        omega
      · exact induction (by omega) item later

theorem seen_of_sizes {entry : DirEntry} (isReached : entry.reached = true)
    (same : entry.printedSize = entry.trueSize) : entry.Seen := by
  refine ⟨isReached, ?_⟩
  unfold printedSize trueSize at same
  cases directory : entry.directory with
  | true => exact Or.inl rfl
  | false =>
      cases readable : entry.readable with
      | true => exact Or.inr (Or.inl rfl)
      | false =>
          rw [directory, readable, if_neg nofun, if_neg nofun, if_neg nofun] at same
          exact Or.inr (Or.inr same.symm)

theorem stated_of_seen {entry : DirEntry} (seen : entry.Seen) : entry.stated = entry.told := by
  have same : entry.printedSize = entry.trueSize := by
    unfold printedSize trueSize
    rcases seen.2 with directory | readable | empty
    · rw [if_pos directory, if_pos directory]
    · rw [if_pos readable]
    · rw [empty, ite_self]
  rw [stated, told, same]

/-- Lines that state what is true come from entries that were seen, all of them. -/
theorem seen_of_stated {entries : List DirEntry}
    (same : (((found entries).filter reached).map stated).Perm (entries.map told)) :
    forall entry, entry ∈ entries -> entry.Seen := by
  have order := found_perm entries
  have lengths := same.length_eq
  rw [List.length_map, List.length_map, <- order.length_eq] at lengths
  have whole := List.filter_eq_self.mp (List.filter_sublist.eq_of_length lengths)
  rw [List.filter_eq_self.mpr whole] at same
  have sizes : (entries.map printedSize).sum = (entries.map trueSize).sum := by
    have mapped := (((order.symm.map stated).trans same).map fun row => row.2.2.toNat).sum_nat
    rw [List.map_map, List.map_map] at mapped
    exact mapped
  intro entry member
  exact seen_of_sizes (whole entry (order.mem_iff.mpr member)) (eq_of_sum_eq printedSize_le sizes entry member)

/-! ## The listing of a directory -/

/-- A directory that is listed: its path is accepted, and the engine runs the
script for it, whose lines come in frames. -/
structure Lists (engine : ExecEngine) (id : Text) (root : Root) (path : Text) (entries : List DirEntry)
    (frames : List LogOutput) : Prop where
  valid : Paths.validateId id = .ok ()
  executed : Exists fun target => ConfinedText root path target /\
    Executed engine id (listCommand target) frames 0
  printed : frames.flatMap stdoutPart = listing entries

/-- The items that are listed are one for each entry, with its true name, kind and
size, exactly when all names are UTF-8 without tabs and line feeds, the shell
reaches all entries and reads the files, there are no more of them than are
listed, and no output was cut off. -/
theorem listing_decodes_iff {engine : ExecEngine} {id : Text} {root : Root} {path : Text}
    {entries : List DirEntry} {frames : List LogOutput} (lists : Lists engine id root path entries frames)
    (describe : Bytes -> String) :
    (Exists fun items => listContainer (exec engine describe id) root path = .ok items /\
        (items.map FileItem.told).Perm (entries.map told)) <->
      (forall entry, entry ∈ entries -> entry.Carried /\ entry.Seen) /\
        entries.length <= maxDirectoryEntries /\ (capture frames).truncated = false := by
  rcases lists.executed with ⟨target, confined, executed⟩
  constructor
  · rintro ⟨items, listed, same⟩
    rcases (listContainer_eq_ok confined).mp listed with ⟨raw, returned, rfl, few⟩
    rcases (exec_eq_ok lists.valid executed).mp returned with ⟨complete, _, encoded⟩
    have carried : forall entry, entry ∈ entries -> entry.Carried := by
      intro entry member
      have inside : entry.told ∈ (decodeListing raw).map FileItem.told :=
        same.mem_iff.mpr (List.mem_map_of_mem member)
      rcases List.mem_map.mp inside with ⟨item, isItem, named⟩
      rw [FileItem.told, told, Prod.mk.injEq] at named
      rcases decodeListing_name isItem with ⟨noTab, noFeed⟩
      refine ⟨?_, ?_, ?_⟩
      · rw [fromUtf8_eq_some.mpr named.1]
        rfl
      · rw [<- named.1]
        exact (@mem_encodeUtf8 item.name '\t' (by decide)).not.mpr noTab
      · rw [<- named.1]
        exact (@mem_encodeUtf8 item.name '\n' (by decide)).not.mpr noFeed
    have count := same.length_eq
    rw [List.length_map, List.length_map] at count
    rcases @decodeListing_lines ((found entries).filter reached) (fun entry member =>
      carried entry ((found_perm entries).mem_iff.mp (List.mem_filter.mp member).1)) with
        ⟨text, written, decoded⟩
    have one : raw = text := encodeUtf8_injective (encoded.trans (lists.printed.trans written.symm))
    rw [one, decoded] at same
    have seen := seen_of_stated same
    exact ⟨fun entry member => ⟨carried entry member, seen entry member⟩, count ▸ few, complete⟩
  · rintro ⟨all, few, complete⟩
    have order := found_perm entries
    have whole : (found entries).filter reached = found entries :=
      List.filter_eq_self.mpr fun entry member => (all entry (order.mem_iff.mp member)).2.1
    rcases @decodeListing_lines (found entries)
      (fun entry member => (all entry (order.mem_iff.mp member)).1) with ⟨raw, encoded, decoded⟩
    have states : (found entries).map stated = (found entries).map told :=
      List.map_congr_left fun entry member => stated_of_seen (all entry (order.mem_iff.mp member)).2
    have same : ((decodeListing raw).map FileItem.told).Perm (entries.map told) := by
      rw [decoded, states]
      exact order.map told
    have count := same.length_eq
    rw [List.length_map, List.length_map] at count
    refine ⟨_, (listContainer_eq_ok confined).mpr ⟨raw, ?_, rfl, by rw [count]; exact few⟩, same⟩
    rw [exec_eq_ok lists.valid executed, lists.printed, listing, whole]
    exact ⟨complete, rfl, encoded⟩

/-- An engine that runs every command and has the given frames of it. -/
def answering (frames : List LogOutput) : ExecEngine where
  createExec _ _ := .ok "exec".toList
  startExec _ := .ok (.attached (frames.map .ok))
  inspectExec _ := .ok (some 0)

/-- A file of five bytes with the given name. -/
def fiveBytes (name : Bytes) (nonempty : name ≠ []) (no_slash : slashByte ∉ name) (no_zero : 0 ∉ name)
    (not_dot : name ≠ [dotByte]) (not_dots : name ≠ [dotByte, dotByte]) : DirEntry where
  name
  directory := false
  size := 5
  modified := "2024-01-01T00:00:00Z".toList
  nonempty
  no_slash
  no_zero
  not_dot
  not_dots
  size_fits := by decide
  modified_plain := by decide

/-- A file with a tab in its name. -/
def tabbed : DirEntry :=
  fiveBytes (encodeUtf8 "a\tb".toList) (by decide) (by decide) (by decide) (by decide) (by decide)

def readme : DirEntry :=
  fiveBytes (encodeUtf8 "readme".toList) (by decide) (by decide) (by decide) (by decide) (by decide)

theorem listing_decodes_iff_readme :
    (Exists fun items => listContainer (exec (answering [.stdOut (listing [readme])]) (fun _ => "")
        "s".toList) runningServer "/".toList = .ok items /\
          (items.map FileItem.told).Perm ([readme].map told)) <->
      (forall entry, entry ∈ [readme] -> entry.Carried /\ entry.Seen) /\
        [readme].length <= maxDirectoryEntries /\
          (capture [.stdOut (listing [readme])]).truncated = false :=
  listing_decodes_iff ⟨by decide, ⟨"/data".toList, ⟨"/data".toList, by decide, by decide⟩,
    "exec".toList, rfl, rfl, rfl⟩, by decide⟩ fun _ => ""

/-- It is listed under the part of its name before the tab. -/
theorem tabbed_listed_as_a :
    Not (Exists fun items => listContainer (exec (answering [.stdOut (listing [tabbed])]) (fun _ => "")
      "s".toList) runningServer "/".toList = .ok items /\
        (items.map FileItem.told).Perm ([tabbed].map told)) := by
  rintro ⟨items, listed, same⟩
  have found : listContainer (exec (answering [.stdOut (listing [tabbed])]) (fun _ => "") "s".toList)
      runningServer "/".toList = .ok [⟨"a".toList, false, 0, "5".toList⟩] := by decide +kernel
  cases found.symm.trans listed
  revert same
  decide

end DirEntry

end Storage
end Agapornis
