import ClassSkeleton.Decl.Groups
import ClassSkeleton.Skeleton.Rewriting

namespace ClassSkeleton.Skeleton

/-!
# Warnings

A skeleton is written whatever happens. What a reader should look at is collected beside it, in
the order in which the parts of the class are written.
-/

inductive Warning where
  | unclosed (wrapper : Rules.Unclosed)
  | manyBases (className : String) (bases : List String)
  deriving DecidableEq, Repr

namespace Warning

def message : Warning → String
  | unclosed w => "no closing '>' for '" ++ w.opener ++ "' in '" ++ w.text ++ "'"
  | manyBases className bases =>
    className ++ " has " ++ toString bases.length ++ " non-virtual bases (" ++
      ", ".intercalate bases ++ "); Java allows one superclass"

end Warning

namespace Rewriting

def tokenUnclosed (w : Rewriting) (t : Decl.Token) : List Rules.Unclosed :=
  w.rules.typeReferences.unclosed t.spelling ++
    w.rules.types.unclosed (w.rules.typeReferences.apply t.spelling)

def typeUnclosed (w : Rewriting) (type : Decl.TypeRef) : List Rules.Unclosed :=
  type.flatMap w.tokenUnclosed ++ w.rules.typeRemovals.unclosed (w.joinedTokens type)

def docUnclosed (w : Rewriting) (doc : Decl.Doc) : List Rules.Unclosed :=
  doc.fragments.flatMap w.rules.docs.unclosed

def memberUnclosed (w : Rewriting) (m : Decl.Member) : List Rules.Unclosed :=
  w.docUnclosed m.doc ++ w.typeUnclosed m.type ++
    match m.kind with
    | .field _ => []
    | .method _ _ _ params =>
      w.rules.methodNames.unclosed m.name ++ params.flatMap fun p => w.typeUnclosed p.type

def baseWarnings (w : Rewriting) (c : Decl.ClassDecl) : List Warning :=
  if 1 < c.supertypes.length then [.manyBases c.name (c.supertypes.map w.stripNamespace)] else []

/-- The warnings for a class whose groups are written in the order of `groups`. -/
def warnings (w : Rewriting) (c : Decl.ClassDecl) (groups : List Decl.Group) : List Warning :=
  (w.docUnclosed c.doc).map .unclosed ++ w.baseWarnings c ++
    groups.flatMap fun g => g.members.flatMap fun m => (w.memberUnclosed m).map .unclosed

end Rewriting

end ClassSkeleton.Skeleton
