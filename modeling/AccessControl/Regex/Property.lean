import AccessControl.Text.Age
import AccessControl.Text.Script
import AccessControl.Text.Segmentation

/-! # Properties named in patterns

A pattern may name a set of characters by a property that a character has or has not, by a general
category or a group of categories, by a script, or by the value of another property. Case, spaces,
underscores, hyphens and a leading `is` do not count in these names.
-/

namespace AccessControl.Property

/-- Drop a leading `is`. -/
def dropIs : List Char → List Char
  | i :: s :: rest => if i.toLower == 'i' && s.toLower == 's' then rest else i :: s :: rest
  | name => name

/-- A name without what does not count in it. Only `isc` keeps its beginning, since it is not the
    category `c`. -/
def normalize (name : List Char) : List Char :=
  let inner := dropIs name
  let kept := (inner.filter fun c =>
    c.toNat < 128 && c != ' ' && c != '_' && c != '-').map Char.toLower
  if inner.length < name.length && kept == ['c'] then ['i', 's', 'c'] else kept

def sameName (normalized : List Char) (name : String) : Bool := normalize name.toList == normalized

/-- The set that goes by a normalized name. -/
def lookup? (sets : List (List String × CodePointSet)) (name : List Char) : Option CodePointSet :=
  (sets.find? fun (names, _) => names.any (sameName name)).map (·.2)

/-- The general categories and the groups of them. Code points that are no characters belong to no
    category, but to the group of what is no text. -/
def categories : List (List String × CodePointSet) :=
  Category.all.map (fun c => ([c.shortName, c.longName], c.members)) ++ [
    (["Any"], .full),
    (["ASCII"], .ofRange '\x00' '\x7f'),
    (["Assigned"], Category.assigned),
    (["Cn", "Unassigned"], Category.unassigned),
    (["C", "Other"], .unionOf [Category.unionOf [.control, .format, .privateUse],
      Category.unassigned, Category.surrogates]),
    (["L", "Letter"], Category.unionOf Text.letterCategories),
    (["LC", "Cased_Letter"],
      Category.unionOf [.uppercaseLetter, .lowercaseLetter, .titlecaseLetter]),
    (["M", "Mark", "Combining_Mark"], Category.unionOf Text.markCategories),
    (["N", "Number"], Category.unionOf Text.numberCategories),
    (["P", "Punctuation", "punct"], Category.unionOf [.connectorPunctuation, .dashPunctuation,
      .openPunctuation, .closePunctuation, .initialPunctuation, .finalPunctuation,
      .otherPunctuation]),
    (["S", "Symbol"],
      Category.unionOf [.mathSymbol, .currencySymbol, .modifierSymbol, .otherSymbol]),
    (["Z", "Separator"],
      Category.unionOf [.spaceSeparator, .lineSeparator, .paragraphSeparator]),
    (["Cntrl"], Category.controls),
    (["digit"], Category.decimalNumbers)]

def category? (name : List Char) : Option CodePointSet := lookup? categories name

def script? (name : List Char) : Option Script :=
  Script.all.find? fun s => s.names.any (sameName name)

/-- The set that a name without a value stands for. -/
def named? (name : List Char) : Option CodePointSet :=
  let name := normalize name
  (lookup? BinaryProperty.all name).orElse fun _ =>
    (category? name).orElse fun _ => (script? name).map (·.members)

/-- A property that has values. -/
inductive Valued where
  | category
  | script
  | scriptExtension
  | age
  | graphemeBreak
  | wordBreak
  | sentenceBreak

def Valued.all : List (List String × Valued) := [
  (["General_Category", "gc"], .category), (["Script", "sc"], .script),
  (["Script_Extensions", "scx"], .scriptExtension), (["Age"], .age),
  (["Grapheme_Cluster_Break", "GCB"], .graphemeBreak), (["Word_Break", "WB"], .wordBreak),
  (["Sentence_Break", "SB"], .sentenceBreak)]

/-- The set of characters for which a property has the value of a normalized name. -/
def Valued.members? (value : List Char) : Valued → Option CodePointSet
  | .category => category? value
  | .script => (script? value).map (·.members)
  | .scriptExtension => (script? value).map (·.extended)
  | .age => Age.upTo? (sameName value) .empty Age.versions
  | .graphemeBreak => lookup? Segmentation.graphemeBreaks value
  | .wordBreak => lookup? Segmentation.wordBreaks value
  | .sentenceBreak => lookup? Segmentation.sentenceBreaks value

/-- The set that a property with a value stands for. -/
def valued? (property value : List Char) : Option CodePointSet := do
  let (_, p) ← Valued.all.find? fun (names, _) => names.any (sameName (normalize property))
  p.members? (normalize value)

end AccessControl.Property
