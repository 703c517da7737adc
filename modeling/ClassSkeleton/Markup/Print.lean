import ClassSkeleton.Markup.Element

namespace ClassSkeleton.Markup

/-!
# Writing markup

Ampersands and angle brackets are written as entities, and so are double quotes in attributes.
An element without children closes itself.
-/

def escapeChar (inAttribute : Bool) : Char → List Char
  | '&' => ['&', 'a', 'm', 'p', ';']
  | '<' => ['&', 'l', 't', ';']
  | '>' => ['&', 'g', 't', ';']
  | '"' => if inAttribute then ['&', 'q', 'u', 'o', 't', ';'] else ['"']
  | c => [c]

def escape (inAttribute : Bool) (text : List Char) : List Char :=
  text.flatMap (escapeChar inAttribute)

def attributeText (pair : String × String) : List Char :=
  ' ' :: pair.1.toList ++ '=' :: '"' :: escape true pair.2.toList ++ ['"']

def Tag.text (tag : Tag) : List Char :=
  '<' :: tag.name.toList ++ tag.attributes.flatMap attributeText

namespace Node

mutual

def markup : Node → List Char
  | text s => escape false s.toList
  | element tag [] => tag.text ++ ['/', '>']
  | element tag (child :: rest) =>
    tag.text ++ '>' :: (markup child ++ allMarkup rest) ++
      '<' :: '/' :: tag.name.toList ++ ['>']

def allMarkup : List Node → List Char
  | [] => []
  | node :: rest => markup node ++ allMarkup rest

end

end Node

def Element.toXml (e : Element) : String := String.ofList e.toNode.markup

end ClassSkeleton.Markup
