import SnippetAudit.Proofs.Text.Utf8
import SnippetAudit.Syntax.Node

/-!
# Nodes that stand on a text

Nodes tell their place in octets, while a source is a text first: what stands before a node, the node's own text,
and what stands behind it. A node whose offsets are the lengths of the encoded texts has exactly its own text,
whatever characters the others are made of.

## What this module delivers

- `Node.Spans`: the offsets of a node are those of a text behind another;
- `Node.Spans.text`: the node's text is the text that it stands on.
-/

set_option autoImplicit false

namespace SnippetAudit.Syntax.Node

open Text

/-- The node starts behind `before` and stops behind `t`. -/
structure Spans (before t : Text) (n : Node) : Prop where
  start : n.start = (encode before).length
  stop : n.stop = (encode (before ++ t)).length

theorem Spans.octets {before t : Text} {n : Node} (h : n.Spans before t) (behind : Text) :
    n.octets (encode (before ++ t ++ behind)) = encode t := by
  have hwidth : n.stop - n.start = (encode t).length := by
    simp [h.start, h.stop]
  rw [Node.octets, hwidth, h.start, List.append_assoc, encode_append, List.drop_left, encode_append, List.take_left]

/-- A node has the text that it stands on. -/
theorem Spans.text {before t : Text} {n : Node} (h : n.Spans before t) (behind : Text) :
    n.text (encode (before ++ t ++ behind)) = t := by
  rw [Node.text, h.octets, decodeLossy_encode]

end SnippetAudit.Syntax.Node
