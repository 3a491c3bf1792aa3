import Mathlib.Data.List.Forall2
import Mathlib.Data.List.TakeDrop
import Agapornis.Foundations.TextLines
import Agapornis.Runtime.KeyedUpdates

namespace Agapornis
namespace Runtime

open Foundations Agapornis.Core

/-!
# Where the lines of an edited file come from

The edits are run on lines that know which line of the file they are, as long
as no entry has written over them.  The file is left alone when its output is
made of these lines, byte for byte, and of what was written.
-/

/-- A line with the bytes it has in the file, unless it was written. -/
structure Placed where
  text : Text
  origin : Option (Bytes × Bool)
  deriving DecidableEq

namespace Placed

def written (text : Text) : Placed :=
  ⟨text, none⟩

/-- Write over a line where an entry has something to write. -/
def rewrite (writes : Text -> Option Text) (line : Placed) : Placed :=
  match writes line.text with
  | some text => written text
  | none => line

/-- The bytes that should be seen of a line. -/
def shown (line : Placed) : Bytes :=
  match line.origin with
  | some (bytes, _) => bytes
  | none => encodeUtf8 line.text

theorem text_rewrite (writes : Text -> Option Text) (line : Placed) :
    (rewrite writes line).text = (writes line.text).getD line.text := by
  rw [rewrite]
  cases writes line.text <;> rfl

end Placed

open Placed

/-- The lines of a file which nothing has been written over. -/
def kept (lines : List Placed) : List (Bytes × Bool) :=
  lines.filterMap Placed.origin

def placedLines (bytes : Bytes) : List Placed :=
  (byteLines bytes).map (fun line => ⟨lineText line, some line⟩)

/-! ## The edits -/

section Edits

variable (texts : ValueTexts)

def fileWrites (entry : Text × Value) (line : Text) : Option Text :=
  if entry.1.isPrefixOf line then some (scalarText texts entry.2) else none

def filePlacing (lines : List Placed) (entry : Text × Value) : List Placed :=
  if lines.any (fun line => entry.1.isPrefixOf line.text) then lines.map (rewrite (fileWrites texts entry))
  else lines ++ [written (scalarText texts entry.2)]

def propertiesWrites (entry : Text × Value) (line : Text) : Option Text :=
  match propertiesKey line with
  | some (lineKey, rest) =>
      if lineKey = entry.1 then
        (replacementForCurrent entry.2 (Text.trim rest)).map (fun value => entry.1 ++ '=' :: scalarText texts value)
      else none
  | none => none

def propertiesPlacing (lines : List Placed) (entry : Text × Value) : List Placed :=
  lines.map (rewrite (propertiesWrites texts entry)) ++
    if !(lines.any (fun line => lineKey line.text = some entry.1)) && !isObject entry.2 then
      [written (entry.1 ++ '=' :: scalarText texts entry.2)]
    else []

/-- What is written over a line in a section. -/
def iniWrites (wantedSection wantedKey : Text) (replacement : Value) (current line : Text) : Option Text :=
  if isHeader line || current ≠ wantedSection then none
  else
    match splitAtSeparator (Text.trim line) with
    | some (key, found) =>
        if Text.trim key = wantedKey then
          (replacementForCurrent replacement (Text.trim found)).map
            (fun value => wantedKey ++ '=' :: scalarText texts value)
        else none
    | none => none

def iniPlacing (wantedSection wantedKey : Text) (replacement : Value) : Text -> List Placed -> List Placed
  | _, [] => []
  | current, line :: lines =>
      rewrite (iniWrites texts wantedSection wantedKey replacement current) line ::
        iniPlacing wantedSection wantedKey replacement (sectionAfter current line.text) lines

def beforePlacedHeader (lines : List Placed) : List Placed × List Placed :=
  lines.span (fun line => !isHeader line.text)

def iniInserting (wantedSection added : Text) (lines : List Placed) : List Placed :=
  if wantedSection.isEmpty then
    (beforePlacedHeader lines).1 ++ written added :: (beforePlacedHeader lines).2
  else
    let header := '[' :: wantedSection ++ [']']
    match lines.span (fun line => Text.trim line.text ≠ header) with
    | (before, start :: rest) =>
        before ++ start :: ((beforePlacedHeader rest).1 ++ written added :: (beforePlacedHeader rest).2)
    | (_, []) =>
        lines ++ (if lines.isEmpty || (lines.getLast?.map Placed.text) = some [] then [] else [written []]) ++
          [written header, written added]

def iniPlacingAll (lines : List Placed) (entry : Text × Value) : List Placed :=
  let (wantedSection, wantedKey) := sectionAndKey entry.1
  let edited := iniPlacing texts wantedSection wantedKey entry.2 [] lines
  let replaced := (iniLines texts wantedSection wantedKey entry.2 [] (lines.map Placed.text)).2
  if !replaced && !isObject entry.2 then
    iniInserting wantedSection (wantedKey ++ '=' :: scalarText texts entry.2) edited
  else edited

end Edits

/-! ## What the edits do to the texts -/

section Texts

variable {texts : ValueTexts} {lines : List Placed}

theorem texts_placedLines (bytes : Bytes) : (placedLines bytes).map Placed.text = (linesOf bytes).1 := by
  have read : (linesOf bytes).1 = (byteLines bytes).map lineText := readLines_fromUtf8Lossy bytes
  rw [read, placedLines, List.map_map]
  rfl

theorem any_text (holds : Text -> Bool) :
    lines.any (fun line => holds line.text) = (lines.map Placed.text).any holds := by
  rw [List.any_map]
  rfl

theorem texts_rewrite (writes : Text -> Option Text) :
    (lines.map (rewrite writes)).map Placed.text =
      (lines.map Placed.text).map (fun line => (writes line).getD line) := by
  rw [List.map_map, List.map_map]
  apply List.map_congr_left
  intro line _
  exact text_rewrite writes line

theorem texts_filePlacing (entry : Text × Value) :
    (filePlacing texts lines entry).map Placed.text = fileEdit texts (lines.map Placed.text) entry := by
  rw [filePlacing, fileEdit, any_text]
  split
  · rw [texts_rewrite]
    apply List.map_congr_left
    intro line _
    rw [fileWrites]
    split <;> rfl
  · rw [List.map_append]
    rfl

theorem propertiesLine_eq (key : Text) (replacement : Value) (line : Text) :
    propertiesLine texts key replacement line =
      ((propertiesWrites texts (key, replacement) line).getD line, decide (lineKey line = some key)) := by
  rw [propertiesLine, propertiesWrites, lineKey]
  cases propertiesKey line with
  | none => rfl
  | some parts =>
      dsimp only
      rw [Option.map_some]
      by_cases same : parts.1 = key
      · rw [if_pos same, if_pos same, decide_eq_true (congrArg some same)]
        cases replacementForCurrent replacement (Text.trim parts.2) <;> rfl
      · rw [if_neg same, if_neg same, decide_eq_false fun other => same (Option.some.inj other)]
        rfl

theorem texts_propertiesPlacing (entry : Text × Value) :
    (propertiesPlacing texts lines entry).map Placed.text = propertiesEdit texts (lines.map Placed.text) entry := by
  have lineEq : propertiesLine texts entry.1 entry.2 = fun line =>
      ((propertiesWrites texts entry line).getD line, decide (lineKey line = some entry.1)) :=
    funext (propertiesLine_eq entry.1 entry.2)
  rw [propertiesPlacing, propertiesEdit, lineEq, List.map_append, texts_rewrite,
    any_text (fun line => decide (lineKey line = some entry.1))]
  have firsts : ((lines.map Placed.text).map fun line =>
      ((propertiesWrites texts entry line).getD line, decide (lineKey line = some entry.1))).map Prod.fst =
      (lines.map Placed.text).map (fun line => (propertiesWrites texts entry line).getD line) := by
    rw [List.map_map]
    rfl
  have seconds : ((lines.map Placed.text).map fun line =>
      ((propertiesWrites texts entry line).getD line, decide (lineKey line = some entry.1))).any Prod.snd =
      (lines.map Placed.text).any (fun line => decide (lineKey line = some entry.1)) := by
    rw [List.any_map]
    rfl
  rw [firsts, seconds]
  congr 1
  split <;> rfl

theorem iniLines_cons (wantedSection wantedKey : Text) (replacement : Value) (current line : Text) (rest : List Text) :
    (iniLines texts wantedSection wantedKey replacement current (line :: rest)).1 =
      (iniWrites texts wantedSection wantedKey replacement current line).getD line ::
        (iniLines texts wantedSection wantedKey replacement (sectionAfter current line) rest).1 := by
  rw [iniLines, iniWrites, sectionAfter]
  dsimp only
  by_cases header : isHeader line = true
  · rw [if_pos header, if_pos header, header, Bool.true_or, if_pos rfl]
    rfl
  · rw [if_neg header, if_neg header, Bool.eq_false_iff.mpr header, Bool.false_or]
    by_cases elsewhere : current = wantedSection
    · rw [if_neg (fun different => different elsewhere), if_neg (by simp [elsewhere])]
      cases splitAtSeparator (Text.trim line) with
      | none => rfl
      | some parts =>
          dsimp only
          by_cases same : Text.trim parts.1 = wantedKey
          · rw [if_neg (fun different => different same), if_pos same]
            cases replacementForCurrent replacement (Text.trim parts.2) <;> rfl
          · rw [if_pos same, if_neg same]
            rfl
    · rw [if_pos elsewhere, if_pos (by simp [elsewhere])]
      rfl

theorem texts_iniPlacing (wantedSection wantedKey : Text) (replacement : Value) : forall current : Text,
    (iniPlacing texts wantedSection wantedKey replacement current lines).map Placed.text =
      (iniLines texts wantedSection wantedKey replacement current (lines.map Placed.text)).1 := by
  induction lines with
  | nil => exact fun _ => rfl
  | cons line rest induction =>
      intro current
      rw [iniPlacing, List.map_cons, List.map_cons, iniLines_cons, text_rewrite, induction]

theorem texts_beforePlacedHeader :
    (beforePlacedHeader lines).1.map Placed.text = (beforeHeader (lines.map Placed.text)).1 /\
      (beforePlacedHeader lines).2.map Placed.text = (beforeHeader (lines.map Placed.text)).2 := by
  rw [beforePlacedHeader, beforeHeader, List.span_eq_takeWhile_dropWhile, List.span_eq_takeWhile_dropWhile,
    List.takeWhile_map, List.dropWhile_map]
  exact ⟨rfl, rfl⟩

theorem texts_insertedBeforeHeader (added : Text) :
    ((beforePlacedHeader lines).1 ++ written added :: (beforePlacedHeader lines).2).map Placed.text =
      (beforeHeader (lines.map Placed.text)).1 ++ added :: (beforeHeader (lines.map Placed.text)).2 := by
  rw [List.map_append, List.map_cons, texts_beforePlacedHeader.1, texts_beforePlacedHeader.2]
  rfl

theorem texts_iniInserting (wantedSection added : Text) :
    (iniInserting wantedSection added lines).map Placed.text =
      iniInsert wantedSection added (lines.map Placed.text) := by
  rw [iniInserting, iniInsert]
  by_cases root : wantedSection.isEmpty = true
  · rw [if_pos root, if_pos root, texts_insertedBeforeHeader]
  · rw [if_neg root, if_neg root]
    dsimp only
    rw [List.span_eq_takeWhile_dropWhile, List.span_eq_takeWhile_dropWhile, List.takeWhile_map, List.dropWhile_map]
    have same : ((fun line => decide (Text.trim line ≠ '[' :: wantedSection ++ [']'])) ∘ Placed.text) =
        fun line : Placed => decide (Text.trim line.text ≠ '[' :: wantedSection ++ [']']) := rfl
    rw [same]
    cases lines.dropWhile (fun line => decide (Text.trim line.text ≠ '[' :: wantedSection ++ [']'])) with
    | nil =>
        rw [List.map_nil]
        dsimp only
        rw [List.map_append, List.map_append, List.getLast?_map, List.isEmpty_map]
        congr 2
        split <;> rfl
    | cons start rest =>
        rw [List.map_cons]
        dsimp only
        rw [List.map_append, List.map_cons, texts_insertedBeforeHeader]

theorem texts_iniPlacingAll (entry : Text × Value) :
    (iniPlacingAll texts lines entry).map Placed.text = iniEdit texts (lines.map Placed.text) entry := by
  rw [iniPlacingAll, iniEdit]
  dsimp only
  split
  · rw [texts_iniInserting, texts_iniPlacing]
  · exact texts_iniPlacing _ _ _ _

theorem texts_foldl {placing : List Placed -> Text × Value -> List Placed}
    {edit : List Text -> Text × Value -> List Text}
    (step : forall lines entry, (placing lines entry).map Placed.text = edit (lines.map Placed.text) entry)
    (find : List (Text × Value)) (lines : List Placed) :
    (find.foldl placing lines).map Placed.text = find.foldl edit (lines.map Placed.text) :=
  (List.foldl_hom (List.map Placed.text) fun lines entry => (step lines entry).symm).symm

end Texts

/-! ## What the edits keep -/

/-- The lines before and after an edit, as far as nothing was written. -/
structure Follows (before after : List Placed) : Prop where
  kept : (kept after).Sublist (kept before)
  member : forall line, line ∈ after -> line.origin = none \/ line ∈ before
  last : forall line, after.getLast? = some line -> line.origin = none \/ before.getLast? = some line
  longer : before.length <= after.length

namespace Follows

variable {before middle after : List Placed}

theorem refl (lines : List Placed) : Follows lines lines :=
  ⟨List.Sublist.refl _, fun _ member => Or.inr member, fun _ last => Or.inr last, Nat.le_refl _⟩

theorem trans (first : Follows before middle) (second : Follows middle after) : Follows before after where
  kept := second.kept.trans first.kept
  member line member := (second.member line member).elim Or.inl (first.member line)
  last line last := (second.last line last).elim Or.inl (first.last line)
  longer := first.longer.trans second.longer

/-- Some lines are written over. -/
theorem of_rewritten (rewritten : List.Forall₂ (fun old line => line = old \/ line.origin = none) before after) :
    Follows before after := by
  induction rewritten with
  | nil => exact refl []
  | @cons old line before after changed rest induction =>
      have lengths := rest.length_eq
      refine ⟨?_, ?_, ?_, by rw [List.length_cons, List.length_cons, lengths]⟩
      · rcases changed with same | written
        · rw [same, Runtime.kept, Runtime.kept, List.filterMap_cons, List.filterMap_cons]
          split
          · exact induction.kept
          · exact induction.kept.cons_cons _
        · rw [Runtime.kept, List.filterMap_cons_none written]
          refine induction.kept.trans ?_
          rw [Runtime.kept, Runtime.kept, List.filterMap_cons]
          split
          · exact List.Sublist.refl _
          · exact List.sublist_cons_self _ _
      · intro other member
        rcases List.mem_cons.mp member with here | later
        · rw [here]
          rcases changed with same | written
          · exact Or.inr (List.mem_cons.mpr (Or.inl same))
          · exact Or.inl written
        · exact (induction.member other later).imp_right (List.mem_cons_of_mem old)
      · intro other isLast
        cases rest with
        | nil =>
            rw [List.getLast?_singleton] at isLast ⊢
            rw [← Option.some.inj isLast]
            rcases changed with same | written
            · exact Or.inr (congrArg some same.symm)
            · exact Or.inl written
        | cons _ _ =>
            rw [List.getLast?_cons_cons] at isLast ⊢
            exact induction.last other isLast

theorem rewrite (writes : Text -> Option Text) (lines : List Placed) :
    Follows lines (lines.map (Placed.rewrite writes)) := by
  apply of_rewritten
  rw [List.forall₂_map_right_iff, List.forall₂_same]
  intro line _
  rw [Placed.rewrite]
  cases writes line.text with
  | none => exact Or.inl rfl
  | some text => exact Or.inr rfl

/-- Lines that are written are put between the others. -/
theorem insert (front back added : List Placed)
    (written : forall line, line ∈ added -> line.origin = none) :
    Follows (front ++ back) (front ++ (added ++ back)) := by
  have gone : added.filterMap Placed.origin = [] := by
    rw [List.filterMap_eq_nil_iff]
    exact written
  refine ⟨?_, ?_, ?_, by simp only [List.length_append]; omega⟩
  · rw [Runtime.kept, Runtime.kept, List.filterMap_append, List.filterMap_append, List.filterMap_append, gone,
      List.nil_append]
  · intro line member
    rcases List.mem_append.mp member with early | later
    · exact Or.inr (List.mem_append_left _ early)
    · rcases List.mem_append.mp later with new | late
      · exact Or.inl (written line new)
      · exact Or.inr (List.mem_append_right _ late)
  · intro line last
    cases back with
    | nil =>
        rw [List.append_nil] at last ⊢
        rcases List.eq_nil_or_concat added with none_added | ⟨others, final, shape⟩
        · rw [none_added, List.append_nil] at last
          exact Or.inr last
        · rw [shape, List.concat_eq_append, ← List.append_assoc, List.getLast?_concat] at last
          refine Or.inl (written line ?_)
          rw [shape, List.concat_eq_append, ← Option.some.inj last]
          exact List.mem_append_right _ (List.mem_singleton_self final)
    | cons next rest =>
        right
        rw [← List.append_assoc, List.getLast?_append_cons] at last
        rw [List.getLast?_append_cons]
        exact last

theorem foldl (placing : List Placed -> Text × Value -> List Placed)
    (step : forall lines entry, Follows lines (placing lines entry)) (find : List (Text × Value)) :
    forall lines, Follows lines (find.foldl placing lines) := by
  induction find with
  | nil => exact refl
  | cons entry find induction =>
      intro lines
      rw [List.foldl_cons]
      exact (step lines entry).trans (induction _)

end Follows

section Steps

variable {texts : ValueTexts}

theorem filePlacing_follows (lines : List Placed) (entry : Text × Value) :
    Follows lines (filePlacing texts lines entry) := by
  rw [filePlacing]
  split
  · exact Follows.rewrite _ lines
  · have added := Follows.insert lines [] [written (scalarText texts entry.2)]
      (List.forall_mem_singleton.mpr rfl)
    rwa [List.append_nil, List.append_nil] at added

theorem propertiesPlacing_follows (lines : List Placed) (entry : Text × Value) :
    Follows lines (propertiesPlacing texts lines entry) := by
  refine (Follows.rewrite (propertiesWrites texts entry) lines).trans ?_
  have added := Follows.insert (lines.map (Placed.rewrite (propertiesWrites texts entry))) []
    (if !(lines.any (fun line => lineKey line.text = some entry.1)) && !isObject entry.2 then
      [written (entry.1 ++ '=' :: scalarText texts entry.2)]
    else []) (by
      intro line member
      split at member
      · rw [List.mem_singleton.mp member]
        rfl
      · cases member)
  rwa [List.append_nil, List.append_nil] at added

theorem iniPlacing_follows (wantedSection wantedKey : Text) (replacement : Value) (lines : List Placed) :
    forall current, Follows lines (iniPlacing texts wantedSection wantedKey replacement current lines) := by
  intro current
  apply Follows.of_rewritten
  induction lines generalizing current with
  | nil => exact List.Forall₂.nil
  | cons line rest induction =>
      rw [iniPlacing]
      refine List.Forall₂.cons ?_ (induction _)
      rw [Placed.rewrite]
      cases iniWrites texts wantedSection wantedKey replacement current line.text with
      | none => exact Or.inl rfl
      | some text => exact Or.inr rfl

theorem beforePlacedHeader_append (lines : List Placed) :
    (beforePlacedHeader lines).1 ++ (beforePlacedHeader lines).2 = lines := by
  rw [beforePlacedHeader, List.span_eq_takeWhile_dropWhile]
  exact List.takeWhile_append_dropWhile

/-- A line with its section is put between the others. -/
theorem iniInserting_between (wantedSection added : Text) (lines : List Placed) :
    Exists fun front => Exists fun back => Exists fun new => lines = front ++ back /\
      iniInserting wantedSection added lines = front ++ (new ++ back) /\
        forall line, line ∈ new -> line.origin = none := by
  rw [iniInserting]
  by_cases root : wantedSection.isEmpty = true
  · rw [if_pos root]
    exact ⟨_, _, [written added], (beforePlacedHeader_append lines).symm, rfl, List.forall_mem_singleton.mpr rfl⟩
  · rw [if_neg root]
    dsimp only
    rw [List.span_eq_takeWhile_dropWhile]
    have whole := List.takeWhile_append_dropWhile
      (p := fun line : Placed => decide (Text.trim line.text ≠ '[' :: wantedSection ++ [']'])) (l := lines)
    cases found : lines.dropWhile (fun line => decide (Text.trim line.text ≠ '[' :: wantedSection ++ [']'])) with
    | nil =>
        refine ⟨lines, [], (if lines.isEmpty || (lines.getLast?.map Placed.text) = some [] then [] else [written []]) ++
          [written ('[' :: wantedSection ++ [']']), written added], (List.append_nil _).symm, ?_, ?_⟩
        · rw [List.append_nil, ← List.append_assoc]
        · intro line member
          rcases List.mem_append.mp member with blank | new
          · split at blank
            · cases blank
            · rw [List.mem_singleton.mp blank]
              rfl
          · rcases List.mem_cons.mp new with header | last
            · rw [header]
              rfl
            · rw [List.mem_singleton.mp last]
              rfl
    | cons start rest =>
        rw [found] at whole
        dsimp only
        generalize lines.takeWhile (fun line => decide (Text.trim line.text ≠ '[' :: wantedSection ++ [']'])) = front
          at whole
        refine ⟨front ++ start :: (beforePlacedHeader rest).1, (beforePlacedHeader rest).2, [written added], ?_, ?_,
          List.forall_mem_singleton.mpr rfl⟩
        · rw [List.append_assoc, List.cons_append, beforePlacedHeader_append, whole]
        · rw [List.append_assoc, List.cons_append]
          rfl

theorem iniInserting_follows (wantedSection added : Text) (lines : List Placed) :
    Follows lines (iniInserting wantedSection added lines) := by
  rcases iniInserting_between wantedSection added lines with ⟨front, back, new, isLines, inserted, unknown⟩
  rw [inserted, isLines]
  exact Follows.insert front back new unknown

theorem iniPlacingAll_follows (lines : List Placed) (entry : Text × Value) :
    Follows lines (iniPlacingAll texts lines entry) := by
  rw [iniPlacingAll]
  dsimp only
  split
  · exact (iniPlacing_follows _ _ _ lines []).trans (iniInserting_follows _ _ _)
  · exact iniPlacing_follows _ _ _ lines []

/-- What is known of a line is known of its bytes. -/
def Traced (lines : List Placed) : Prop :=
  forall line, line ∈ lines -> forall own, line.origin = some own -> line.text = lineText own

theorem traced_placedLines (bytes : Bytes) : Traced (placedLines bytes) := by
  intro line member own known
  rcases List.mem_map.mp member with ⟨origin, _, same⟩
  rw [← same] at known ⊢
  rw [← Option.some.inj known]

theorem Traced.follows {before after : List Placed} (traced : Traced before) (follows : Follows before after) :
    Traced after := by
  intro line member own known
  rcases follows.member line member with written | old
  · rw [written] at known
    cases known
  · exact traced line old own known

theorem kept_placedLines (bytes : Bytes) : kept (placedLines bytes) = byteLines bytes := by
  rw [kept, placedLines, List.filterMap_map]
  exact List.filterMap_some

theorem kept_rewrite {lines : List Placed} (traced : Traced lines) (writes : Text -> Option Text) :
    kept (lines.map (Placed.rewrite writes)) = (kept lines).filter (fun own => (writes (lineText own)).isNone) := by
  induction lines with
  | nil => rfl
  | cons line rest induction =>
      have later := induction fun other member => traced other (List.mem_cons_of_mem line member)
      rw [kept] at later ⊢
      rw [kept, List.map_cons, List.filterMap_cons, List.filterMap_cons, later, kept]
      have known := traced line List.mem_cons_self
      rw [Placed.rewrite]
      cases origin : line.origin with
      | none =>
          cases writes line.text with
          | none =>
              dsimp only
              rw [origin]
          | some text => rfl
      | some own =>
          rw [known own origin]
          dsimp only
          rw [List.filter_cons]
          cases writes (lineText own) with
          | none =>
              dsimp only
              rw [origin]
              rfl
          | some text => rfl

theorem kept_filePlacing {lines : List Placed} (traced : Traced lines) (entry : Text × Value) :
    kept (filePlacing texts lines entry) =
      (kept lines).filter (fun own => (fileWrites texts entry (lineText own)).isNone) := by
  rw [filePlacing]
  cases found : lines.any (fun line => entry.1.isPrefixOf line.text) with
  | true =>
      rw [if_pos rfl]
      exact kept_rewrite traced _
  | false =>
      rw [if_neg Bool.false_ne_true, ← kept_rewrite traced, kept, List.filterMap_append]
      have nothing : lines.map (Placed.rewrite (fileWrites texts entry)) = lines := by
        conv_rhs => rw [← List.map_id lines]
        apply List.map_congr_left
        intro line member
        have other := List.any_eq_false.mp found line member
        rw [Placed.rewrite, fileWrites, if_neg other]
        rfl
      rw [nothing]
      exact List.append_nil _

theorem kept_propertiesPlacing {lines : List Placed} (traced : Traced lines) (entry : Text × Value) :
    kept (propertiesPlacing texts lines entry) =
      (kept lines).filter (fun own => (propertiesWrites texts entry (lineText own)).isNone) := by
  rw [propertiesPlacing, ← kept_rewrite traced, kept, List.filterMap_append]
  split <;> exact List.append_nil _

/-- The lines, each with the section it is in. -/
def inSections : Text -> List Placed -> List (Text × Placed)
  | _, [] => []
  | current, line :: lines => (current, line) :: inSections (sectionAfter current line.text) lines

/-- The lines whose key in their section an entry does not name, or for which it has nothing to write. -/
def iniUnmet (texts : ValueTexts) (entry : Text × Value) (lines : List Placed) : List (Bytes × Bool) :=
  let (wantedSection, wantedKey) := sectionAndKey entry.1
  ((inSections [] lines).filter fun placed =>
    (iniWrites texts wantedSection wantedKey entry.2 placed.1 placed.2.text).isNone).filterMap fun placed =>
      placed.2.origin

theorem kept_iniPlacing (wantedSection wantedKey : Text) (replacement : Value) (lines : List Placed) :
    forall current, kept (iniPlacing texts wantedSection wantedKey replacement current lines) =
      ((inSections current lines).filter fun placed =>
        (iniWrites texts wantedSection wantedKey replacement placed.1 placed.2.text).isNone).filterMap fun placed =>
          placed.2.origin := by
  induction lines with
  | nil => exact fun _ => rfl
  | cons line rest induction =>
      intro current
      have later := induction (sectionAfter current line.text)
      rw [kept] at later ⊢
      rw [iniPlacing, inSections, List.filterMap_cons, List.filter_cons, later, Placed.rewrite]
      cases iniWrites texts wantedSection wantedKey replacement current line.text with
      | none =>
          rw [if_pos Option.isNone_none, List.filterMap_cons]
      | some text => rfl

theorem kept_iniInserting (wantedSection added : Text) (lines : List Placed) :
    kept (iniInserting wantedSection added lines) = kept lines := by
  rcases iniInserting_between wantedSection added lines with ⟨front, back, new, isLines, inserted, unknown⟩
  rw [inserted, isLines, kept, kept, List.filterMap_append, List.filterMap_append, List.filterMap_append,
    List.filterMap_eq_nil_iff.mpr unknown, List.nil_append]

/-- An entry takes from the file exactly the lines whose key in their section it meets. -/
theorem kept_iniPlacingAll (lines : List Placed) (entry : Text × Value) :
    kept (iniPlacingAll texts lines entry) = iniUnmet texts entry lines := by
  rw [iniPlacingAll, iniUnmet]
  dsimp only
  split
  · rw [kept_iniInserting, kept_iniPlacing]
  · exact kept_iniPlacing _ _ _ lines []

/-- Lines that no entry writes over. -/
def unwritten (writes : Text × Value -> Text -> Option Text) (find : List (Text × Value)) (line : Bytes × Bool) :
    Bool :=
  find.all (fun entry => (writes entry (lineText line)).isNone)

theorem kept_foldl {placing : List Placed -> Text × Value -> List Placed} {writes : Text × Value -> Text -> Option Text}
    (follows : forall lines entry, Follows lines (placing lines entry))
    (step : forall lines entry, Traced lines -> kept (placing lines entry) =
      (kept lines).filter (fun own => (writes entry (lineText own)).isNone))
    (find : List (Text × Value)) : forall lines, Traced lines ->
      kept (find.foldl placing lines) = (kept lines).filter (unwritten writes find) := by
  induction find with
  | nil =>
      intro lines _
      exact (List.filter_eq_self.mpr fun _ _ => rfl).symm
  | cons entry find induction =>
      intro lines traced
      rw [List.foldl_cons, induction _ (traced.follows (follows lines entry)), step lines entry traced,
        List.filter_filter]
      congr 1
      funext own
      rw [unwritten, unwritten, List.all_cons, Bool.and_comm]

end Steps

/-! ## Leaving a file alone -/

section Output

variable (texts : ValueTexts) (bytes : Bytes) (find : List (Text × Value))

def filePlaced : List Placed :=
  find.foldl (filePlacing texts) (placedLines bytes)

def propertiesPlaced : List Placed :=
  find.foldl (propertiesPlacing texts) (placedLines bytes)

def iniPlaced : List Placed :=
  find.foldl (iniPlacingAll texts) (placedLines bytes)

end Output

/-- The last line is a blank one of the file. -/
def EndsInBlank (lines : List Placed) : Prop :=
  (lines.getLast?.any fun line => decide (line.origin.map Prod.fst = some [])) = true

/-- The output is the lines, each followed by a line feed; only behind a last
line that can be seen it may be missing. -/
def LeavesAlone (output : Bytes) (lines : List Placed) : Prop :=
  (Not (lines = []) /\ output = [10].intercalate (lines.map shown) ++ [10]) \/
    (output = [10].intercalate (lines.map shown) /\ Not (EndsInBlank lines))

/-- Bytes that are read and written again as they are. -/
def Whole (line : Bytes × Bool) : Prop :=
  (fromUtf8 line.1).isSome = true /\ (line.2 = true -> Not (line.1.getLast? = some 13))

/-- What an edited file must be like to be left alone. -/
def LinesIntact (lines : List Placed) : Prop :=
  (forall line, line ∈ kept lines -> Whole line) /\ (1 < lines.length -> Not (EndsInBlank lines))

instance (lines : List Placed) : Decidable (EndsInBlank lines) :=
  inferInstanceAs (Decidable (_ = true))

instance (output : Bytes) (lines : List Placed) : Decidable (LeavesAlone output lines) :=
  inferInstanceAs (Decidable (_ \/ _))

theorem endsInBlank_iff {lines : List Placed} : EndsInBlank lines <-> Exists fun line =>
    lines.getLast? = some line /\ Exists fun ended => line.origin = some ([], ended) := by
  rw [EndsInBlank]
  cases lines.getLast? with
  | none => simp
  | some line =>
      cases origin : line.origin with
      | none => simp [origin]
      | some own =>
          rcases own with ⟨front, ended⟩
          simp [origin]

theorem whole_iff (line : Bytes × Bool) : encodeUtf8 (lineText line) = line.1 <-> Whole line := by
  rcases line with ⟨front, ended⟩
  rw [Whole, lineText]
  constructor
  · intro same
    have text : fromUtf8 front = some _ := fromUtf8_eq_some.mpr same
    refine ⟨by rw [text]; rfl, ?_⟩
    intro isEnded last
    dsimp only at same isEnded
    rw [if_pos isEnded] at same
    rcases List.getLast?_eq_some_iff.mp last with ⟨rest, shape⟩
    dsimp only at shape
    rw [shape, fromUtf8Lossy_return, Text.dropReturn, if_pos List.getLast?_concat, List.dropLast_concat] at same
    have read := congrArg fromUtf8Lossy same
    rw [fromUtf8Lossy_encodeUtf8, fromUtf8Lossy_return] at read
    have lengths := congrArg List.length read
    rw [List.length_append, List.length_singleton] at lengths
    omega
  · rintro ⟨valid, noReturn⟩
    rcases Option.isSome_iff_exists.mp valid with ⟨text, read⟩
    have encoded := fromUtf8_eq_some.mp read
    dsimp only at encoded noReturn ⊢
    split
    · next isEnded =>
        rw [Text.dropReturn, if_neg fun last => noReturn isEnded (getLast?_of_return last), ← encoded,
          fromUtf8Lossy_encodeUtf8]
    · rw [← encoded, fromUtf8Lossy_encodeUtf8]

/-- The line feed that is put behind everything. -/
def finalFeed (lines : List Text) (ended : Bool) : Bytes :=
  if ended && !(['\n'].isSuffixOf (['\n'].intercalate lines)) then [10] else []

theorem finishLines_eq (lines : List Text) (ended : Bool) :
    finishLines lines ended = [10].intercalate (lines.map encodeUtf8) ++ finalFeed lines ended := by
  rw [finishLines, finalFeed, ← encodeUtf8_intercalate]
  split
  · exact encodeUtf8_append _ _
  · exact (List.append_nil _).symm

theorem finalFeed_cases (lines : List Text) (ended : Bool) :
    finalFeed lines ended = [] \/ finalFeed lines ended = [10] := by
  rw [finalFeed]
  split
  · exact Or.inr rfl
  · exact Or.inl rfl

/-- A blank line behind others looks like the end of the line before it. -/
theorem finalFeed_blank {front : List Text} (more : Not (front = [])) (ended : Bool) :
    finalFeed (front ++ [[]]) ended = [] := by
  rcases List.exists_cons_of_ne_nil more with ⟨first, rest, shape⟩
  have ends : ['\n'].isSuffixOf (['\n'].intercalate (front ++ [[]])) = true := by
    rw [shape, Text.intercalate_append, List.isSuffixOf_iff_suffix]
    exact ⟨_, rfl⟩
  rw [finalFeed, ends, Bool.not_true, Bool.and_false, if_neg Bool.false_ne_true]

/-- A line that is alone looks like nothing when it is blank. -/
theorem finalFeed_single (ended : Bool) : finalFeed [[]] ended = if ended then [10] else [] := by
  cases ended <;> rfl

section Leaving

variable {lines : List Placed} {ended : Bool}

theorem shown_of_whole (traced : Traced lines) (whole : forall line, line ∈ kept lines -> Whole line)
    {line : Placed} (member : line ∈ lines) : encodeUtf8 line.text = shown line := by
  rw [shown]
  cases origin : line.origin with
  | none => rfl
  | some own =>
      have inside : own ∈ kept lines := List.mem_filterMap.mpr ⟨line, member, origin⟩
      rw [traced line member own origin]
      exact (whole_iff own).mpr (whole own inside)

/-- A line which is not written has no line feed in it. -/
theorem apart_of_traced (traced : Traced lines) (plain : forall line, line ∈ kept lines -> 10 ∉ line.1)
    {line : Placed} (member : line ∈ lines) :
    encodeUtf8 line.text = shown line \/ (10 ∉ encodeUtf8 line.text /\ 10 ∉ shown line) := by
  rw [shown]
  cases origin : line.origin with
  | none => exact Or.inl rfl
  | some own =>
      have inside : own ∈ kept lines := List.mem_filterMap.mpr ⟨line, member, origin⟩
      have noFeed : '\n' ∉ lineText own := plain_lineText (plain own inside)
      rw [traced line member own origin]
      have feedByte : UInt8.ofNat '\n'.toNat ∉ encodeUtf8 (lineText own) := mt (mem_encodeUtf8 (by decide)).mp noFeed
      exact Or.inr ⟨feedByte, plain own inside⟩

/-- The output shows the lines exactly when they can be read and written again,
and the last of several can be seen. -/
theorem leavesAlone_iff (traced : Traced lines) (plain : forall line, line ∈ kept lines -> 10 ∉ line.1)
    (opened : ended = false -> Not (EndsInBlank lines)) (filled : ended = true -> Not (lines = [])) :
    LeavesAlone (finishLines (lines.map Placed.text) ended) lines <-> LinesIntact lines := by
  have blankText (line : Placed) (member : line ∈ lines) (closed : Bool) (origin : line.origin = some ([], closed)) :
      line.text = [] := by
    rw [traced line member _ origin]
    cases closed <;> rfl
  have feedOfBlank (several : 1 < lines.length) (blank : EndsInBlank lines) :
      finalFeed (lines.map Placed.text) ended = [] := by
    rcases endsInBlank_iff.mp blank with ⟨line, last, closed, origin⟩
    rcases List.getLast?_eq_some_iff.mp last with ⟨front, shape⟩
    have empty := blankText line (List.mem_of_getLast? last) closed origin
    rw [shape, List.map_append, List.map_singleton, empty]
    apply finalFeed_blank
    intro nothing
    rw [shape, List.length_append, List.map_eq_nil_iff.mp nothing] at several
    exact absurd several (Nat.lt_irrefl 1)
  rw [LeavesAlone, finishLines_eq]
  constructor
  · intro alone
    by_cases empty : lines = []
    · rw [empty]
      exact ⟨nofun, fun several => absurd several (by decide)⟩
    · have outcome : Exists fun feed : Bytes => (feed = [] \/ feed = [10]) /\
          [10].intercalate ((lines.map Placed.text).map encodeUtf8) ++ finalFeed (lines.map Placed.text) ended =
            [10].intercalate (lines.map shown) ++ feed /\ (feed = [] -> Not (EndsInBlank lines)) := by
        rcases alone with ⟨_, same⟩ | ⟨same, seen⟩
        · exact ⟨[10], Or.inr rfl, same, fun impossible => by cases impossible⟩
        · exact ⟨[], Or.inl rfl, same.trans (List.append_nil _).symm, fun _ => seen⟩
      rcases outcome with ⟨feed, feeds, same, seen⟩
      have pairs := pieces_of_intercalate (lines.map fun line => (encodeUtf8 line.text, shown line))
        (by
          intro pair member
          rcases List.mem_map.mp member with ⟨line, inside, rfl⟩
          exact apart_of_traced traced plain inside)
        (fun nothing => empty (List.map_eq_nil_iff.mp nothing)) (finalFeed_cases (lines.map Placed.text) ended) feeds
        (by
          rw [List.map_map, List.map_map]
          rw [List.map_map] at same
          exact same)
      refine ⟨?_, ?_⟩
      · intro own inside
        rcases List.mem_filterMap.mp inside with ⟨line, member, origin⟩
        have equal := pairs.1 _ (List.mem_map_of_mem member)
        dsimp only at equal
        rw [shown, origin, traced line member own origin] at equal
        exact (whole_iff own).mp equal
      · intro several blank
        exact seen (pairs.2 ▸ feedOfBlank several blank) blank
  · rintro ⟨whole, last⟩
    have same : (lines.map Placed.text).map encodeUtf8 = lines.map shown := by
      rw [List.map_map]
      apply List.map_congr_left
      intro line member
      exact shown_of_whole traced whole member
    rw [same]
    rcases finalFeed_cases (lines.map Placed.text) ended with noFeed | feed
    · right
      rw [noFeed, List.append_nil]
      refine ⟨rfl, fun blank => ?_⟩
      cases isEnded : ended with
      | false => exact opened isEnded blank
      | true =>
          rcases endsInBlank_iff.mp blank with ⟨line, isLast, closed, origin⟩
          have several : Not (1 < lines.length) := fun several => last several blank
          have one : lines = [line] := by
            rcases List.getLast?_eq_some_iff.mp isLast with ⟨front, shape⟩
            rw [shape, List.length_append, List.length_singleton] at several
            rw [shape, List.eq_nil_of_length_eq_zero (by omega : front.length = 0)]
            rfl
          rw [one, List.map_singleton, blankText line (List.mem_of_getLast? isLast) closed origin, finalFeed_single,
            isEnded] at noFeed
          cases noFeed
    · left
      rw [feed]
      refine ⟨?_, rfl⟩
      intro empty
      cases isEnded : ended with
      | false =>
          rw [finalFeed, isEnded, Bool.false_and, if_neg Bool.false_ne_true] at feed
          cases feed
      | true => exact filled isEnded empty

end Leaving

/-- A file and the lines into which edits have made its own. -/
theorem placed_leavesAlone_iff {bytes : Bytes} {lines : List Placed} (follows : Follows (placedLines bytes) lines) :
    LeavesAlone (finishLines (lines.map Placed.text) (linesOf bytes).2) lines <-> LinesIntact lines := by
  have ends : (linesOf bytes).2 = (byteLines bytes).getLast?.any Prod.snd := endsLine_fromUtf8Lossy bytes
  apply leavesAlone_iff ((traced_placedLines bytes).follows follows)
  · intro line member
    have inside := follows.kept.subset member
    rw [kept_placedLines] at inside
    exact plain_of_mem_byteLines bytes line inside
  · intro open_end blank
    rcases endsInBlank_iff.mp blank with ⟨line, last, closed, origin⟩
    rcases follows.last line last with written | old
    · rw [written] at origin
      cases origin
    · rw [placedLines, List.getLast?_map, Option.map_eq_some_iff] at old
      rcases old with ⟨own, isLast, same⟩
      rw [← same] at origin
      rw [ends, isLast, Option.any_some, Option.some.inj origin] at open_end
      rw [Option.some.inj origin] at isLast
      exact blank_is_ended isLast open_end
  · intro closed empty
    have none_left := follows.longer
    rw [empty, List.length_nil, Nat.le_zero, List.length_eq_zero_iff, placedLines, List.map_eq_nil_iff] at none_left
    rw [ends, none_left] at closed
    cases closed

/-- Editing leaves a file alone exactly when every line that is not written
over can be read and written again, and is not a blank one behind all others. -/
theorem edited_lines_left_alone (texts : ValueTexts) (bytes : Bytes) (find : List (Text × Value)) :
    (kept (filePlaced texts bytes find) = (byteLines bytes).filter (unwritten (fileWrites texts) find) /\
      kept (propertiesPlaced texts bytes find) = (byteLines bytes).filter (unwritten (propertiesWrites texts) find) /\
      (kept (iniPlaced texts bytes find)).Sublist (byteLines bytes) /\
      forall front entry, kept (iniPlaced texts bytes (front ++ [entry])) =
        iniUnmet texts entry (iniPlaced texts bytes front)) /\
    (LeavesAlone (applyFileParser texts bytes find) (filePlaced texts bytes find) <->
      LinesIntact (filePlaced texts bytes find)) /\
    (LeavesAlone (applyPropertiesParser texts bytes find) (propertiesPlaced texts bytes find) <->
      LinesIntact (propertiesPlaced texts bytes find)) /\
    (LeavesAlone (applyIniParser texts bytes find) (iniPlaced texts bytes find) <->
      LinesIntact (iniPlaced texts bytes find)) := by
  have fileFollows := Follows.foldl (filePlacing texts) filePlacing_follows find (placedLines bytes)
  have propertiesFollows := Follows.foldl (propertiesPlacing texts) propertiesPlacing_follows find
    (placedLines bytes)
  have iniFollows := Follows.foldl (iniPlacingAll texts) iniPlacingAll_follows find (placedLines bytes)
  refine ⟨⟨?_, ?_, ?_, ?_⟩, ?_, ?_, ?_⟩
  · rw [← kept_placedLines bytes]
    exact kept_foldl filePlacing_follows (fun lines entry traced => kept_filePlacing traced entry) find _
      (traced_placedLines bytes)
  · rw [← kept_placedLines bytes]
    exact kept_foldl propertiesPlacing_follows (fun lines entry traced => kept_propertiesPlacing traced entry) find _
      (traced_placedLines bytes)
  · rw [← kept_placedLines bytes]
    exact iniFollows.kept
  · intro front entry
    rw [iniPlaced, List.foldl_append]
    exact kept_iniPlacingAll _ entry
  · rw [applyFileParser, ← texts_placedLines, ← texts_foldl fun lines entry => texts_filePlacing entry]
    exact placed_leavesAlone_iff fileFollows
  · rw [applyPropertiesParser, ← texts_placedLines, ← texts_foldl fun lines entry => texts_propertiesPlacing entry]
    exact placed_leavesAlone_iff propertiesFollows
  · rw [applyIniParser, ← texts_placedLines, ← texts_foldl fun lines entry => texts_iniPlacingAll entry]
    exact placed_leavesAlone_iff iniFollows

/-- A file that ends in a blank line, and the entry for its first line. -/
def blankEnd : Bytes × List (Text × Value) :=
  (encodeUtf8 "port=0\nx\n\n".toList, [("port".toList, .string "1".toList)])

theorem blank_line_lost :
    Not (LeavesAlone (applyFileParser ⟨fun _ => [], fun _ => none⟩ blankEnd.1 blankEnd.2)
      (filePlaced ⟨fun _ => [], fun _ => none⟩ blankEnd.1 blankEnd.2)) /\
    Not (LeavesAlone (applyPropertiesParser ⟨fun _ => [], fun _ => none⟩ blankEnd.1 blankEnd.2)
      (propertiesPlaced ⟨fun _ => [], fun _ => none⟩ blankEnd.1 blankEnd.2)) /\
    Not (LeavesAlone (applyIniParser ⟨fun _ => [], fun _ => none⟩ blankEnd.1 blankEnd.2)
      (iniPlaced ⟨fun _ => [], fun _ => none⟩ blankEnd.1 blankEnd.2)) := by
  decide

end Runtime
end Agapornis
