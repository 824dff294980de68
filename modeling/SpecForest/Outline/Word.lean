/-!
# Words

Every word can be a name, except for the reserved ones.
-/

namespace SpecForest.Outline

/-- The words that are no names. -/
def reservedWords : List String :=
  ["_", "abstract", "as", "async", "await", "become", "box", "break", "const", "continue", "crate", "do",
    "dyn", "else", "enum", "extern", "false", "final", "fn", "for", "if", "impl", "in", "let", "loop",
    "macro", "match", "mod", "move", "mut", "override", "priv", "pub", "ref", "return", "Self", "self",
    "static", "struct", "super", "trait", "true", "try", "type", "typeof", "unsafe", "unsized", "use",
    "virtual", "where", "while", "yield"]

/-- Whether a word can be a name. -/
def isName (word : String) : Bool := !reservedWords.contains word

/-- The reserved words with which a path can begin. -/
def pathWords : List String := ["self", "Self", "super", "crate"]

end SpecForest.Outline
