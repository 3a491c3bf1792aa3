import Agapornis.Foundations.Utf8
import Agapornis.Runtime.Replacements

namespace Agapornis
namespace Runtime

open Foundations Agapornis.Core

/-!
# Configuration files that are edited by lines

The three parsers go through the lines of a file once for each entry of the
map they are given.  What the entry does not find is added, by the parsers
for properties and for sections only when the replacement is no map.
-/

/-- Whether a line begins with the needle. -/
def fileEdit (texts : ValueTexts) (lines : List Text) (entry : Text × Value) : List Text :=
  let replacement := scalarText texts entry.2
  if lines.any (fun line => entry.1.isPrefixOf line) then
    lines.map (fun line => if entry.1.isPrefixOf line then replacement else line)
  else lines ++ [replacement]

/-- The lines of a file, without carriage returns before line feeds. -/
def linesOf (bytes : Bytes) : List Text × Bool :=
  let text := Text.replace ['\r', '\n'] ['\n'] (fromUtf8Lossy bytes)
  (Text.lines text, ['\n'].isSuffixOf text)

def finishLines (lines : List Text) (trailingNewline : Bool) : Bytes :=
  let output := ['\n'].intercalate lines
  encodeUtf8 (if trailingNewline && !(['\n'].isSuffixOf output) then output ++ ['\n'] else output)

def applyFileParser (texts : ValueTexts) (bytes : Bytes) (find : List (Text × Value)) : Bytes :=
  finishLines (find.foldl (fileEdit texts) (linesOf bytes).1) (linesOf bytes).2

/-! ## Properties -/

def isSeparator (character : Char) : Bool :=
  character = '=' || character = ':'

/-- The key of a line, and what stands behind the separators. -/
def propertiesKey (line : Text) : Option (Text × Text) :=
  let trimmed := line.dropWhile Text.isWhitespace
  if trimmed.isEmpty || trimmed.head? = some '#' || trimmed.head? = some '!' then none
  else
    let ends := fun character => isSeparator character || Text.isWhitespace character
    some (trimmed.takeWhile (fun character => !ends character),
      (trimmed.dropWhile (fun character => !ends character)).dropWhile ends)

example : propertiesKey "  motd : a = b".toList = some ("motd".toList, "a = b".toList) := by decide

/-- A line with the key of an entry in it. -/
def propertiesLine (texts : ValueTexts) (key : Text) (replacement : Value) (line : Text) : Text × Bool :=
  match propertiesKey line with
  | some (lineKey, rest) =>
      if lineKey = key then
        match replacementForCurrent replacement (Text.trim rest) with
        | some value => (key ++ '=' :: scalarText texts value, true)
        | none => (line, true)
      else (line, false)
  | none => (line, false)

def propertiesEdit (texts : ValueTexts) (lines : List Text) (entry : Text × Value) : List Text :=
  let edited := lines.map (propertiesLine texts entry.1 entry.2)
  let replaced := edited.any Prod.snd
  edited.map Prod.fst ++
    if !replaced && !isObject entry.2 then [entry.1 ++ '=' :: scalarText texts entry.2] else []

def applyPropertiesParser (texts : ValueTexts) (bytes : Bytes) (find : List (Text × Value)) : Bytes :=
  finishLines (find.foldl (propertiesEdit texts) (linesOf bytes).1) (linesOf bytes).2

/-! ## Sections -/

def isHeader (line : Text) : Bool :=
  (Text.trim line).head? = some '[' && (Text.trim line).getLast? = some ']'

/-- The section and the key that an entry names; without a dot there is no section. -/
def sectionAndKey (path : Text) : Text × Text :=
  (Text.splitOnce '.' path).getD ([], path)

/-- The key of a line and what stands behind the first separator. -/
def splitAtSeparator : Text -> Option (Text × Text)
  | [] => none
  | character :: rest =>
      if isSeparator character then some ([], rest)
      else (splitAtSeparator rest).map (fun parts => (character :: parts.1, parts.2))

/-- The lines behind one another in the section which has been entered, with what becomes of them
and whether the key was among them. -/
def iniLines (texts : ValueTexts) (wantedSection wantedKey : Text) (replacement : Value) :
    Text -> List Text -> List Text × Bool
  | _, [] => ([], false)
  | current, line :: lines =>
      let trimmed := Text.trim line
      if isHeader line then
        let (rest, replaced) :=
          iniLines texts wantedSection wantedKey replacement trimmed.tail.dropLast lines
        (line :: rest, replaced)
      else
        let (rest, replaced) := iniLines texts wantedSection wantedKey replacement current lines
        if current ≠ wantedSection then (line :: rest, replaced)
        else
          match splitAtSeparator trimmed with
          | none => (line :: rest, replaced)
          | some (key, found) =>
              if Text.trim key ≠ wantedKey then (line :: rest, replaced)
              else
                match replacementForCurrent replacement (Text.trim found) with
                | some value => ((wantedKey ++ '=' :: scalarText texts value) :: rest, true)
                | none => (line :: rest, true)

/-- The first lines up to a header, and the others. -/
def beforeHeader (lines : List Text) : List Text × List Text :=
  lines.span (fun line => !isHeader line)

/-- Add a line at the end of its section, or with a new section behind everything. -/
def iniInsert (wantedSection added : Text) (lines : List Text) : List Text :=
  if wantedSection.isEmpty then
    (beforeHeader lines).1 ++ added :: (beforeHeader lines).2
  else
    let header := '[' :: wantedSection ++ [']']
    match lines.span (fun line => Text.trim line ≠ header) with
    | (before, start :: rest) =>
        before ++ start :: ((beforeHeader rest).1 ++ added :: (beforeHeader rest).2)
    | (_, []) =>
        lines ++ (if lines.isEmpty || lines.getLast? = some [] then [] else [[]]) ++ [header, added]

def iniEdit (texts : ValueTexts) (lines : List Text) (entry : Text × Value) : List Text :=
  let (wantedSection, wantedKey) := sectionAndKey entry.1
  let (edited, replaced) := iniLines texts wantedSection wantedKey entry.2 [] lines
  if !replaced && !isObject entry.2 then
    iniInsert wantedSection (wantedKey ++ '=' :: scalarText texts entry.2) edited
  else edited

def applyIniParser (texts : ValueTexts) (bytes : Bytes) (find : List (Text × Value)) : Bytes :=
  finishLines (find.foldl (iniEdit texts) (linesOf bytes).1) (linesOf bytes).2

end Runtime
end Agapornis
