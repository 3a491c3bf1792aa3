import Agapornis.Runtime.Configuration
import Agapornis.Runtime.LineParsers
import Agapornis.Runtime.StructuredParsers

namespace Agapornis
namespace Runtime

open Foundations Agapornis.Core

/-!
# Configuration files that are edited as XML

A path leads from the root through the elements with the names in it.  All
elements of one name are followed, and where there is none it is added.
-/

mutual

inductive Element where
  | mk (name : Text) (attributes : List (Text × Text)) (children : List XmlNode)

inductive XmlNode where
  | element (element : Element)
  | text (text : Text)
  | cdata (text : Text)
  | comment (text : Text)
  | processingInstruction (target : Text) (data : Option Text)

end

namespace Element

def name : Element -> Text
  | mk name _ _ => name

def attributes : Element -> List (Text × Text)
  | mk _ attributes _ => attributes

def children : Element -> List XmlNode
  | mk _ _ children => children

def withChildren (element : Element) (children : List XmlNode) : Element :=
  mk element.name element.attributes children

/-- An element with nothing in it. -/
def new (name : Text) : Element :=
  mk name [] []

end Element

/-- The value in quotes of `[attribute='value']`, and the attribute. -/
def xmlAttributeReplacement (value : Text) : Option (Text × Text) := do
  let behind <- Text.stripPrefix ['['] value
  let inner <- if behind.getLast? = some ']' then some behind.dropLast else none
  let parts <- Text.splitOnce '=' inner
  let opened <- Text.stripPrefix [Char.ofNat 39] parts.2
  if opened.getLast? = some (Char.ofNat 39) then some (parts.1, opened.dropLast) else none

/-- Set an attribute, which takes the place of one with the same name. -/
def setAttribute (name value : Text) (attributes : List (Text × Text)) : List (Text × Text) :=
  (attributes.filter (fun entry => entry.1 ≠ name)) ++ [(name, value)]

def XmlNode.isText : XmlNode -> Bool
  | .text _ | .cdata _ => true
  | _ => false

/-- The value which is found in an element; `getText` is the text of the XML library for it. -/
def currentText (getText : Element -> Option Text) (element : Element) : Text :=
  (getText element).getD []

def setXmlValue (texts : ValueTexts) (getText : Element -> Option Text) (replacement : Value)
    (element : Element) : Element :=
  match replacementForCurrent replacement (currentText getText element) with
  | none => element
  | some value =>
      let value := scalarText texts value
      match xmlAttributeReplacement value with
      | some (name, value) => .mk element.name (setAttribute name value element.attributes) element.children
      | none =>
          element.withChildren
            (element.children.filter (fun node => !node.isText) ++ [.text value])

/-- Change the elements among some nodes which have a property. -/
def editElements (wanted : Element -> Bool) (change : Element -> Element) (nodes : List XmlNode) :
    List XmlNode :=
  nodes.map (fun node =>
    match node with
    | .element child => if wanted child then .element (change child) else node
    | _ => node)

def XmlNode.asElement : XmlNode -> Option Element
  | .element child => some child
  | _ => none

/-- The elements among the children. -/
def Element.elements (element : Element) : List Element :=
  element.children.filterMap XmlNode.asElement

def setXmlPath (texts : ValueTexts) (getText : Element -> Option Text) (replacement : Value) :
    List Text -> Element -> Element
  | [], element => setXmlValue texts getText replacement element
  | part :: rest, element =>
      if part = ['*'] then
        element.withChildren
          (editElements (fun _ => true) (setXmlPath texts getText replacement rest) element.children)
      else if element.elements.any (fun child => child.name = part) then
        element.withChildren
          (editElements (fun child => child.name = part) (setXmlPath texts getText replacement rest)
            element.children)
      else
        element.withChildren
          (element.children ++ [.element (setXmlPath texts getText replacement rest (.new part))])

/-- The parts of a path, without the name of the root in front. -/
def xmlParts (root : Element) (path : Text) : List Text :=
  match (path.splitOn '.').filter (fun part => !part.isEmpty) with
  | [] => []
  | first :: rest => if first = root.name then rest else first :: rest

def xmlEdit (texts : ValueTexts) (getText : Element -> Option Text) (root : Element)
    (entry : Text × Value) : Element :=
  if ((entry.1.splitOn '.').filter (fun part => !part.isEmpty)).isEmpty then root
  else setXmlPath texts getText entry.2 (xmlParts root entry.1) root

def applyXmlParser (texts : ValueTexts) (getText : Element -> Option Text) (documents : Documents Element)
    (bytes : Bytes) (find : List (Text × Value)) : Except Failure Bytes := do
  let root <- withContext "parse XML configuration" (documents.parse bytes)
  documents.write (find.foldl (xmlEdit texts getText) root)

/-! ## All parsers -/

/-- What the libraries do for the parsers. -/
structure ParserLibraries where
  texts : ValueTexts
  getText : Element -> Option Text
  json : Documents Value
  yaml : Documents Value
  xml : Documents Element

/-- The parsers that the entries of a descriptor ask for. -/
def configurationParsers (libraries : ParserLibraries) : Parsers where
  file := applyFileParser libraries.texts
  properties := applyPropertiesParser libraries.texts
  ini := applyIniParser libraries.texts
  json := applyJsonParser libraries.texts libraries.json
  yaml := applyYamlParser libraries.texts libraries.yaml
  xml := applyXmlParser libraries.texts libraries.getText libraries.xml

end Runtime
end Agapornis
