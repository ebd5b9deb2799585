import SnippetAudit.Text.Utf8

/-!
# Syntax trees

A syntax tree comes from a parser that never gives up: damage in the source is marked in the tree. A node
tells its type, whether it has a name in the grammar, whether it was put in where syntax is missing,
whether damage lies in it, its span in octets, its field in its parent, and its children in order.

## What this module delivers

- `Node` and its views: `namedChildren`, `childByField?`, `text`;
- `Node.preorder`: a node and everything below it, each before its children, read off a list of pending
  nodes; `preorder_eq` is its recursive form;
- `positionAt`: the line and the column, in characters, of a place in the source.
-/

set_option autoImplicit false

namespace SnippetAudit.Syntax

/-- A node of a syntax tree. -/
structure Node where
  /-- The node's type in the grammar. -/
  kind : String
  /-- The node has a name in the grammar; punctuation has none. -/
  isNamed : Bool
  /-- The node was put in where the source lacks it. -/
  isMissing : Bool
  /-- The node or something below it is damaged. -/
  hasError : Bool
  /-- The first octet. -/
  start : Nat
  /-- The octet behind the last one. -/
  stop : Nat
  /-- The node's field in its parent. -/
  field : Option String
  /-- All children in order. -/
  children : List Node
  deriving Repr, Inhabited

namespace Node

/-- The children that have names. -/
def namedChildren (n : Node) : List Node := n.children.filter (·.isNamed)

/-- The first child in a field. -/
def childByField? (n : Node) (name : String) : Option Node :=
  n.children.find? fun child => child.field == some name

/-- The octets of a node in its source. -/
def octets (n : Node) (source : Octets) : Octets := (source.drop n.start).take (n.stop - n.start)

/-- The source text of a node. -/
def text (n : Node) (source : Octets) : Text := (n.octets source).decodeLossy

mutual

/-- The number of nodes in a tree. -/
def count : Node → Nat
  | ⟨_, _, _, _, _, _, _, children⟩ => countAll children + 1

/-- The number of nodes in several trees. -/
def countAll : List Node → Nat
  | [] => 0
  | n :: rest => count n + countAll rest

end

theorem count_eq (n : Node) : n.count = countAll n.children + 1 := by
  cases n; rfl

theorem countAll_append (ns ms : List Node) : countAll (ns ++ ms) = countAll ns + countAll ms := by
  induction ns with
  | nil => simp [countAll]
  | cons n rest ih => simp [countAll, ih]; omega

/-- All nodes of pending trees: the first pending node, then what is pending once its children stand
before the others. -/
def preorderOf : List Node → List Node
  | [] => []
  | n :: pending => n :: preorderOf (n.children ++ pending)
termination_by pending => countAll pending
decreasing_by
  rw [countAll_append, countAll, count_eq]
  omega

/-- A node and all nodes below it, each before its children, children in order. -/
def preorder (n : Node) : List Node := preorderOf [n]

theorem preorderOf_append (ns ms : List Node) :
    preorderOf (ns ++ ms) = preorderOf ns ++ preorderOf ms := by
  fun_induction preorderOf ns with
  | case1 => simp
  | case2 n pending ih =>
    rw [List.cons_append, preorderOf, ← List.append_assoc, ih, List.cons_append]

/-- The recursive form: a node, then each child's nodes in turn. -/
theorem preorder_eq (n : Node) : n.preorder = n :: n.children.flatMap preorder := by
  have h (ns : List Node) : preorderOf ns = ns.flatMap preorder := by
    induction ns with
    | nil => simp [preorderOf]
    | cons m rest ih =>
      rw [show m :: rest = [m] ++ rest from rfl, preorderOf_append, ih]
      simp [preorder]
  rw [preorder, preorderOf, List.append_nil, h]

end Node

/-- A place in a source: its line and its column in characters, both counted from one. -/
structure Position where
  line : Nat
  column : Nat
  deriving Repr, DecidableEq

/-- The octets between the last line feed and the end of a sequence. -/
def lastLine (octets : Octets) : Octets := (octets.reverse.takeWhile (· != 10)).reverse

/-- The place of the octet with the given number. -/
def positionAt (source : Octets) (offset : Nat) : Position :=
  let before := source.take offset
  ⟨before.count 10 + 1, (lastLine before).decodeLossy.length + 1⟩

end SnippetAudit.Syntax
