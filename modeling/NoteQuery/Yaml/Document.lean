import NoteQuery.Yaml.Node

/-!
The one document of a text: directives, a mark where there are any, one node, and nothing after it
but marks that end a document.
-/

namespace NoteQuery.Yaml.Document

def standardHandles : List (String × String) := [("!", "!"), ("!!", "tag:yaml.org,2002:")]

def accepts (d : Dialect) (major minor : Nat) : Bool :=
  major == 1 && (d == .strict || minor == 1 || minor == 2)

/-- The handles that the directives define, and the tokens after the directives. A handle and the
version may be given once. -/
def readDirectives (d : Dialect) (versioned : Bool) (handles : List (String × String)) :
    List Token → Option (List (String × String) × List Token)
  | .directive (.version major minor) :: rest =>
    if versioned || !accepts d major minor then none else readDirectives d true handles rest
  | .directive (.tag handle start) :: rest =>
    if (handles.lookup handle).isSome then none
    else readDirectives d versioned ((handle, start) :: handles) rest
  | .directive .other :: rest => if d = .strict then readDirectives d versioned handles rest else none
  | ts => some (handles, ts)

/-- The node after the mark of a document may be missing. -/
def readContent (names : Node.Names) : List Token → Option (Node × List Token)
  | [] => some (.blank, [])
  | .directive d :: rest => some (.blank, .directive d :: rest)
  | .documentStart :: rest => some (.blank, .documentStart :: rest)
  | .documentEnd :: rest => some (.blank, .documentEnd :: rest)
  | ts => (Node.read .block names ts).map fun ((node, _), ⟨rest, _⟩) => (node, rest)

def skipEnds (ts : List Token) : List Token := ts.dropWhile (· = .documentEnd)

def readFirst (d : Dialect) (ts : List Token) : Option (Option Node × List Token) :=
  match ts with
  | [] => some (none, [])
  | .directive _ :: _ | .documentStart :: _ =>
    match readDirectives d false [] ts with
    | some (handles, .documentStart :: rest) =>
      (readContent ⟨handles ++ standardHandles, []⟩ rest).map fun (node, rest) => (some node, rest)
    | _ => none
  | ts =>
    (Node.read .block ⟨standardHandles, []⟩ ts).map fun ((node, _), ⟨rest, _⟩) => (some node, rest)

end Document

/-- The node of the only document of a text. A text without a document has none; one that is no
YAML, or has two documents, fails. -/
def Node.ofText (d : Dialect) (text : String) : Except Failure (Option Node) := do
  let ts ← tokensOf d text
  let (node, rest) ← wellFormed (Document.readFirst d ts)
  if (Document.skipEnds rest).isEmpty then .ok node else .error .malformed

end NoteQuery.Yaml
