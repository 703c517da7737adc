import ClassSkeleton.Rules.RuleSet

namespace ClassSkeleton.Rules.Standard

/-!
# The built-in rules

The tables suit the sources of a C++ library for quantitative finance and give them a Java
look. Every operator comes before the operators that it begins with.
-/

/-- Patterns with the templates that replace what they match. -/
abbrev Entries := List (String × String)

/-- The rules of a list of entries; an entry that is no pattern makes no rule. -/
def tableOf (entries : Entries) : Table :=
  entries.filterMap fun entry => (Pattern.ofString? entry.1).map (⟨·, .template entry.2⟩)

def unwrapsOf (patterns : List String) : Table :=
  patterns.filterMap fun source => (Pattern.ofString? source).map (⟨·, .unwrap⟩)

/-- Operators, anchored at the start of the name. -/
def methodNames : Entries := [
  ("^operator\\s*<<=", "shlAssign"),
  ("^operator\\s*>>=", "shrAssign"),
  ("^operator\\s*<<", "toString"),
  ("^operator\\s*\\+=", "addAssign"),
  ("^operator\\s*-=", "subAssign"),
  ("^operator\\s*\\*=", "mulAssign"),
  ("^operator\\s*/=", "divAssign"),
  ("^operator\\s*%=", "modAssign"),
  ("^operator\\s*==", "eq"),
  ("^operator\\s*!=", "ne"),
  ("^operator\\s*>=", "ge"),
  ("^operator\\s*<=", "le"),
  ("^operator\\s*->", "deref"),
  ("^operator\\s*>>", "shr"),
  ("^operator\\s*>", "gt"),
  ("^operator\\s*<", "lt"),
  ("^operator\\s*\\+\\+", "inc"),
  ("^operator\\s*--", "dec"),
  ("^operator\\s*\\+", "add"),
  ("^operator\\s*-", "sub"),
  ("^operator\\s*\\*", "mul"),
  ("^operator\\s*/", "div"),
  ("^operator\\s*%", "mod"),
  ("^operator\\s*!", "not"),
  ("^operator\\s*=", "assign"),
  ("^operator\\s*\\[\\]", "at"),
  ("^operator\\s*\\(\\)", "get")]

def typeReferences : Entries := [
  ("\\s*&+\\s*$", "")]

def spellings : Entries := [
  ("\\s*\\*+\\s*const\\b", ""),
  ("\\s*\\*+(\\s*(?:[>,]|$))", "$1"),
  ("^\\s+|\\s+$", ""),
  ("\\s\x7b2,\x7d", " "),
  ("^const$", "final"),
  ("^const\\s+", "final "),
  ("\\blong\\s+long\\b", "long"),
  ("(^|[^@\\w])unsigned\\s+(long|short|char)\\b", "$\x7b1\x7d/* @Unsigned */ $2"),
  ("(^|[^@\\w])unsigned(?:\\s+int)?\\b", "$\x7b1\x7d/* @Unsigned */ int"),
  ("(^|[^@\\w])bool\\b", "$\x7b1\x7dboolean"),
  ("\\bstd::string\\b", "String"),
  ("\\bstd::(?:vector|list)\\s*<", "List<"),
  ("\\bstd::map\\s*<", "Map<"),
  ("\\bstd::set\\s*<", "Set<"),
  ("\\b(?:boost|std)::weak_ptr\\s*<", "WeakReference<"),
  ("(^|[^@\\w:])(?:std::)?size_t\\b", "$\x7b1\x7dint")]

/-- Names of scalar types with the plain type that each stands for. -/
def scalarTypes : List (String × String) := [
  ("Natural", "int"),
  ("BigInteger", "int"),
  ("Integer", "int"),
  ("Size", "int"),
  ("Day", "int"),
  ("Year", "int"),
  ("Real", "double")]

/-- Names for a real number whose meaning is kept as a comment. -/
def markedReals : List String := [
  "CompoundFactor", "Covariance", "Diffusion", "DiscountFactor", "Drift",
  "Expectation", "Rate", "Spread", "StdDev", "Time",
  "Variance", "Volatility"]

/-- A name as a whole identifier, which no `@` and no qualifier precedes. -/
def scalarPattern (name : String) : String := "(^|[^@\\w:])" ++ name ++ "\\b"

def scalars : Entries :=
  scalarTypes.map fun entry => (scalarPattern entry.1, "$\x7b1\x7d" ++ entry.2)

def markers : Entries :=
  markedReals.map fun name => (scalarPattern name, "$\x7b1\x7d/* @" ++ name ++ " */ double")

/-- Templates that own what they point to. -/
def wrappers : List String := [
  "\\bboost::(?:auto_ptr|scoped_ptr|scoped_array|shared_ptr|shared_array)\\s*<",
  "\\bstd::(?:auto_ptr|unique_ptr|shared_ptr)\\s*<"]

def separators : Entries := [("::", ".")]

/-- Documentation markup, from the enclosing elements to the names in the text. -/
def docs : Entries := [
  ("<para\\s*/>", ""),
  ("<para(?:\\s[^>]*)?>", "<p>"),
  ("</para>", "</p>"),
  ("<p>\\s*<simplesect\\s+kind=\"(note|warning|test|bug)\"[^>]*>", "@$1 "),
  ("<p>\\s*<simplesect\\s+kind=\"(\\w+)\"[^>]*>", "@$1 "),
  ("<simplesect\\s+kind=\"(\\w+)\"[^>]*>", "@$1 "),
  ("</simplesect>\\s*</p>", ""),
  ("</simplesect>", ""),
  ("<p>\\s*<xrefsect(?:\\s[^>]*)?>", ""),
  ("</xrefsect>\\s*</p>", ""),
  ("<xrefsect(?:\\s[^>]*)?>", ""),
  ("</xrefsect>", ""),
  ("<xreftitle>([^<]*)</xreftitle>", "\n@$1 "),
  ("</?xrefdescription>", ""),
  ("<bold>", "<b>"),
  ("</bold>", "</b>"),
  ("<italic>", "<i>"),
  ("</italic>", "</i>"),
  ("<emphasis>", "<em>"),
  ("</emphasis>", "</em>"),
  ("<computeroutput>", "<code>"),
  ("</computeroutput>", "</code>"),
  ("<ref\\s+[^>]*>", "\x7b@link "),
  ("</ref>", "\x7d"),
  ("<formula\\s+[^>]*>\\$", "\x7b@latex$$"),
  ("\\$</formula>", "\x7d"),
  ("<formula\\s+[^>]*>\\\\\\[", "\x7b@latex["),
  ("\\\\\\]</formula>", "\x7d"),
  ("<ulink\\s+url=\"([^\"]*)\"[^>]*>", "<a href=\"$1\">"),
  ("</ulink>", "</a>"),
  ("<itemizedlist>", "<ul>"),
  ("</itemizedlist>", "</ul>"),
  ("<orderedlist>", "<ol>"),
  ("</orderedlist>", "</ol>"),
  ("<listitem>", "<li>"),
  ("</listitem>", "</li>"),
  ("<linebreak\\s*/>", "<br/>"),
  ("<sp\\s*/>", " "),
  ("<parametername(?:\\s[^>]*)?>", "\n@param "),
  ("</parametername>", " "),
  ("</?(?:parameterlist|parameteritem|parameternamelist|parameterdescription)(?:\\s[^>]*)?>", ""),
  ("\\bstd::string\\b", "String"),
  ("\\bstd::(?:vector|list)\\s*(<|&lt;)", "List$1"),
  ("\\bstd::map\\s*(<|&lt;)", "Map$1"),
  ("\\bstd::set\\s*(<|&lt;)", "Set$1")]

end ClassSkeleton.Rules.Standard

namespace ClassSkeleton.Rules

/-- The rules of every run that is not given others. -/
def standard : RuleSet where
  methodNames := Standard.tableOf Standard.methodNames
  typeReferences := Standard.tableOf Standard.typeReferences
  types := Standard.tableOf (Standard.spellings ++ Standard.scalars ++ Standard.markers)
  typeRemovals := Standard.unwrapsOf Standard.wrappers ++ Standard.tableOf Standard.separators
  docs := Standard.tableOf Standard.docs

end ClassSkeleton.Rules
