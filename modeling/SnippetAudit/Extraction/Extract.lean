import SnippetAudit.Extraction.Fence
import SnippetAudit.Extraction.Operation
import SnippetAudit.Extraction.Options

/-!
# Extraction

Extraction cleans a snippet by the passes that its options switch on. The passes run one after the
other, and the whole round is repeated until it changes nothing more. Every pass only deletes, so a
round that changes the text shortens it, and as many rounds as there are characters suffice.

## What this module delivers

- `Pass`: the passes, each with the change it makes;
- `passes`: the passes that options switch on;
- `round`, `settle`: one round, and rounds until nothing changes;
- `extract`: the cleaned snippet.
-/

set_option autoImplicit false

namespace SnippetAudit.Extraction

open Text

/-- One way of cleaning a text. -/
inductive Pass where
  | trim
  | fences
  | htmlComments
  | cComments
  | graphqlComments
  | graphqlDirectives
  | graphqlFragments
  | graphqlVariables
  deriving Repr, DecidableEq

/-- The change a pass makes. -/
def Pass.run : Pass → Text → Text
  | .trim => Text.trim
  | .fences => stripFences
  | .htmlComments => stripHtmlComments
  | .cComments => stripCComments
  | .graphqlComments => stripHashComments
  | .graphqlDirectives => stripDirectives
  | .graphqlFragments => stripFragments
  | .graphqlVariables => stripVariables

/-- The passes that options switch on, in the order in which they run; trimming comes first and
last. -/
def passes (o : Options) : List Pass :=
  (if o.trimWhitespace then [.trim] else []) ++
  (if o.removeMarkdownFences then [.fences] else []) ++
  (if o.removeHtmlComments then [.htmlComments] else []) ++
  (if o.removeCComments then [.cComments] else []) ++
  (if o.removeGraphqlComments then [.graphqlComments] else []) ++
  (if o.removeGraphqlDirectives then [.graphqlDirectives] else []) ++
  (if o.removeGraphqlFragments then [.graphqlFragments] else []) ++
  (if o.removeGraphqlVariables then [.graphqlVariables] else []) ++
  (if o.trimWhitespace then [.trim] else [])

/-- One round: every pass in its turn. -/
def round (ps : List Pass) (t : Text) : Text := ps.foldl (fun t p => p.run t) t

/-- Rounds until one changes nothing, at most `fuel` of them. -/
def settle (ps : List Pass) : Nat → Text → Text
  | 0, t => t
  | fuel + 1, t => if round ps t = t then t else settle ps fuel (round ps t)

/-- The snippet cleaned by the passes that the options switch on. -/
def extract (o : Options) (t : Text) : Text :=
  settle (passes o) (unixNewlines t).length (unixNewlines t)

/-- The snippet cleaned by a preset. -/
def extractNamed (name : String) (t : Text) : Except UnknownPreset Text :=
  (preset name).map (extract · t)

end SnippetAudit.Extraction
