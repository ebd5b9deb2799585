import SnippetAudit.Markdown.Operations
import SnippetAudit.Proofs.Extraction.CommentLine
import SnippetAudit.Proofs.Extraction.NormalForm
import SnippetAudit.Proofs.Markdown.Rendering

/-!
# Finding operations in a written document

Operations are looked for tier by tier, and each tier is taken by what was written and not by what is left after
cleaning: blocks that are tagged settle the matter even if none of them holds an operation. As prose is only read
where there is no block at all, prose around blocks does not matter.

## What this module delivers

- `IsTagged`, `LooksAlike`: the blocks of the two tiers;
- `cleaned`: cleaned operations, without empty ones;
- `operationCandidates_text`: the tier that is taken in a written document;
- `findOperations_text`: the operations found in a written document.
-/

set_option autoImplicit false

namespace SnippetAudit.Markdown

open Text Extraction

/-! ## Tiers -/

/-- The block has the tag of an operation, in whatever case. -/
def WrittenBlock.IsTagged (b : WrittenBlock) : Prop := lower b.tag ∈ graphqlTags

instance : DecidablePred WrittenBlock.IsTagged := fun b => inferInstanceAs (Decidable (lower b.tag ∈ graphqlTags))

/-- The block starts like an operation, whatever its tag. -/
def WrittenBlock.LooksAlike (b : WrittenBlock) : Prop := looksLikeOperation b.found.body = true

instance : DecidablePred WrittenBlock.LooksAlike := fun b =>
  inferInstanceAs (Decidable (looksLikeOperation b.found.body = true))

/-- The bodies of the blocks with a property, in order. -/
def Written.bodies (d : Written) (p : WrittenBlock → Prop) [DecidablePred p] : List Text :=
  (d.blocks.filter p).map fun b => b.found.body

/-- The texts after cleaning, those apart of which nothing is left. -/
def cleaned (ts : List Text) : List Text := (ts.map (extract graphqlClean)).filter (· ≠ [])

theorem findOperations_eq_cleaned (t : Text) : findOperations t = cleaned (operationCandidates t) := by
  rw [findOperations, cleaned]
  refine List.filter_congr fun operation _ => ?_
  cases operation <;> rfl

/-! ## The tier that is taken -/

/-- What a test finds among the blocks of a document, if it tests for a property of what was written. -/
theorem filter_fencedBlocks {test : FencedBlock → Bool} {p : WrittenBlock → Prop} [DecidablePred p]
    (h : ∀ b : WrittenBlock, test b.found = decide (p b)) (d : Written) :
    (fencedBlocks d.text).filter test = (d.blocks.filter p).map WrittenBlock.found := by
  rw [fencedBlocks_written, List.filter_map]
  exact congrArg _ (List.filter_congr fun b _ => h b)

theorem filter_ne_nil_iff {p : WrittenBlock → Prop} [DecidablePred p] (bs : List WrittenBlock) :
    (!((bs.filter p).map WrittenBlock.found).isEmpty) = true ↔ ∃ b ∈ bs, p b := by
  rw [List.isEmpty_map, Bool.not_eq_true', List.isEmpty_eq_false_iff_exists_mem]
  simp only [List.mem_filter, decide_eq_true_iff]

/-- Tagged blocks come first, then blocks that look like operations, then the text as a whole. -/
theorem operationCandidates_text (d : Written) :
    operationCandidates d.text =
      if ∃ b ∈ d.blocks, b.IsTagged then d.bodies WrittenBlock.IsTagged
      else if ∃ b ∈ d.blocks, b.LooksAlike then d.bodies WrittenBlock.LooksAlike
      else if d.blocks = [] then [d.text]
      else [] := by
  have htagged : (fencedBlocks d.text).filter (fun b => graphqlTags.contains b.language) =
      (d.blocks.filter WrittenBlock.IsTagged).map WrittenBlock.found :=
    filter_fencedBlocks (fun b => List.contains_eq_mem b.found.language graphqlTags) d
  have halike : (fencedBlocks d.text).filter (fun b => looksLikeOperation b.body) =
      (d.blocks.filter WrittenBlock.LooksAlike).map WrittenBlock.found :=
    filter_fencedBlocks (fun b => (Bool.decide_coe _).symm) d
  have hnone : (fencedBlocks d.text).isEmpty = true ↔ d.blocks = [] := by
    rw [fencedBlocks_written, List.isEmpty_map, List.isEmpty_iff]
  simp only [operationCandidates, htagged, halike, filter_ne_nil_iff, hnone, List.map_map]
  rfl

/-- A document with the same blocks has the same candidates, if there are blocks at all. -/
theorem operationCandidates_of_blocks_eq {d d' : Written} (h : d'.blocks = d.blocks) (hne : d.blocks ≠ []) :
    operationCandidates d'.text = operationCandidates d.text := by
  simp only [operationCandidates_text, Written.bodies, h, if_neg hne]

/-! ## What is found -/

/-- An operation that is found holds something, has no blanks around it, and has no comment line. -/
theorem clean_of_mem_cleaned {ts : List Text} {operation : Text} (h : operation ∈ cleaned ts) :
    operation ≠ [] ∧ Pass.trim.Clean operation ∧ ∀ line ∈ lines operation, ¬ IsCommentLine line := by
  obtain ⟨hmem, hne⟩ := List.mem_filter.1 h
  obtain ⟨t, -, rfl⟩ := List.mem_map.1 hmem
  have hrun (p : Pass) (hp : graphqlClean.switchesOn p = true) :
      p.run (extract graphqlClean t) = extract graphqlClean t :=
    (round_eq_self_iff _ _).1 (round_extract graphqlClean t) p ((mem_passes_iff _ p).2 hp)
  refine ⟨of_decide_eq_true hne, (Pass.run_eq_self_iff .trim _).1 (hrun .trim rfl),
    (Pass.run_eq_self_iff .graphqlComments _).1 (hrun .graphqlComments rfl)⟩

/-- In a written document the operations are those of the tagged blocks, in order and cleaned, if there are such
blocks, even if nothing is left of them; else those of the blocks that look like operations, if there are any; else
there are none, unless the document has no block and is an operation as a whole. Documents with the same blocks have
the same operations, whatever stands around the blocks. -/
theorem findOperations_text (d : Written) :
    (findOperations d.text =
      if ∃ b ∈ d.blocks, b.IsTagged then cleaned (d.bodies WrittenBlock.IsTagged)
      else if ∃ b ∈ d.blocks, b.LooksAlike then cleaned (d.bodies WrittenBlock.LooksAlike)
      else if d.blocks = [] then cleaned [d.text]
      else []) ∧
      (∀ d' : Written, d'.blocks = d.blocks → d.blocks ≠ [] → findOperations d'.text = findOperations d.text) ∧
      ∀ operation ∈ findOperations d.text, operation ≠ [] ∧
        (∀ c ∈ operation.head?, isBlank c = false) ∧ (∀ c ∈ operation.getLast?, isBlank c = false) ∧
        ∀ line ∈ lines operation, ¬ IsCommentLine line := by
  refine ⟨?_, fun d' hblocks hne => ?_, fun operation hmem => ?_⟩
  · rw [findOperations_eq_cleaned, operationCandidates_text]
    simp only [apply_ite cleaned]
    rfl
  · rw [findOperations_eq_cleaned, findOperations_eq_cleaned, operationCandidates_of_blocks_eq hblocks hne]
  · rw [findOperations_eq_cleaned] at hmem
    obtain ⟨hne, ⟨hstart, hend⟩, hcomments⟩ := clean_of_mem_cleaned hmem
    exact ⟨hne, hstart, hend, hcomments⟩

/-- A tagged block with nothing but a comment in it. -/
def emptyOperation : WrittenBlock :=
  plainBlock "gQl".toList "# all".toList (List.all_eq_true.1 (by decide)) ⟨by decide, by decide⟩ (by decide)

/-- A tagged block with an operation. -/
def shortOperation : WrittenBlock :=
  plainBlock "GRAPHQL".toList "\t\x7b a \x7d ".toList (List.all_eq_true.1 (by decide)) ⟨by decide, by decide⟩ (by decide)

/-- A block with an operation, but without a tag. -/
def untaggedOperation : WrittenBlock :=
  plainBlock [] "\x7b b \x7d".toList (List.all_eq_true.1 (by decide)) ⟨by decide, by decide⟩ (by decide)

/-- The empty operation is dropped, and the block without a tag is not asked for; without the line in front of the
blocks the same is found. -/
theorem findOperations_text_tagged :
    let blocks := [emptyOperation, shortOperation, untaggedOperation].map Segment.block
    let d : Written := ⟨blocks, true⟩
    let d' : Written := ⟨.prose openingWords :: blocks, false⟩
    d'.blocks = d.blocks ∧ d.blocks ≠ [] ∧ findOperations d.text = ["\x7b a \x7d".toList] ∧
      findOperations d'.text = ["\x7b a \x7d".toList] ∧
      ∀ line ∈ lines "\x7b a \x7d".toList, ¬ IsCommentLine line := by
  intro blocks d d'
  have hblocks : d'.blocks = d.blocks := rfl
  have hne : d.blocks ≠ [] := List.cons_ne_nil _ _
  obtain ⟨hfound, hsame, hclean⟩ := findOperations_text d
  have hoperations : findOperations d.text = ["\x7b a \x7d".toList] := by
    rw [hfound]
    decide +kernel
  have hcomments := (hclean _ (hoperations ▸ List.mem_singleton_self _)).2.2.2
  exact ⟨hblocks, hne, hoperations, (hsame d' hblocks hne).trans hoperations, hcomments⟩

end SnippetAudit.Markdown
