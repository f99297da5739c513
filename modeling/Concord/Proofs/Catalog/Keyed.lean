/-
# What is written with keys may be written as a pattern

A keyed inflection has its block without a scan, and an inflector keeps no
template for it. Still it comes to what the written block comes to as a string,
between the two literal texts, and it asks the same callables. The literal texts
stay as they are, whatever patterns are in them.

Key theorems: `Call.template_keyed`, `Inflector.keyed_as_written`.
-/
import Concord.Proofs.Catalog.Inflecting
import Concord.Proofs.Resolution.Parts
import Concord.Proofs.Template.Keyed

namespace Concord
namespace Call

/-! ### Between literal texts -/

variable (call : Call)

/-- A text before other segments; an empty one is no segment. -/
theorem segments_literal_append (text : String) (rest : List Segment) :
    call.segments (Keyed.literal text ++ rest) = (text ++ ·) <$> call.segments rest := by
  unfold Keyed.literal
  split
  · next h => simp [h]
  · simp [segments, segment]

/-- A text behind a block; an empty one is no segment. -/
theorem segments_block_literal (b : Block) (text : String) :
    call.segments (.block b :: Keyed.literal text) = (· ++ text) <$> call.block b := by
  have hliteral := call.segments_literal_append text []
  rw [List.append_nil] at hliteral
  simp [segments, segment, hliteral]

/-- A keyed inflection comes to what its block comes to, between its two literal texts. -/
theorem template_keyed (k : Keyed) :
    call.template k.toTemplate =
      (fun text => k.lead ++ text ++ k.trail) <$> call.block k.toBlock := by
  unfold template Keyed.toTemplate
  rw [segments_literal_append, segments_block_literal, Functor.map_map]
  simp only [String.append_assoc]

end Call

namespace Inflector

variable {i : Inflector} {k : Keyed}

/-! ### Main statement -/

/-- **What is written with keys may be written as a pattern.** The block of a keyed inflection that
can be written is what is scanned of it as it is written. An inflector that keeps the right templates
resolves the inflection to the text of the written block between the two literal texts, or else to
the error of the written block; it asks the same callables. -/
theorem keyed_as_written (hs : i.scans.Sound) (h : k.IsWritable) :
    Template.scan k.toBlock.source = ⟨[.block k.toBlock]⟩ ∧
      ∀ locale args overrides,
        i.interpolateKeyed k locale args overrides =
          ((i.interpolate k.toBlock.source locale args overrides).1.1.map fun text =>
              k.lead ++ text ++ k.trail,
            (i.interpolate k.toBlock.source locale args overrides).1.2) := by
  have hscan : Template.scan k.toBlock.source = ⟨[.block k.toBlock]⟩ :=
    congrArg Template.mk h.scan_source
  refine ⟨hscan, fun locale args overrides => ?_⟩
  rw [(interpolate_spec hs ..).1, Session.interpolate, hscan, Call.template_block]
  unfold interpolateKeyed Session.interpolateKeyed Call.run
  rw [Call.template_keyed, run_map]

/-- A kind, keys of several specs, a text with escaped marks and backslashes, a free text, and a
pattern in the text before the block. -/
def sampleKeyed : Keyed :=
  .ofPairs [("@kind", "gender"), ("@prefix", "@gender\x7bf:no\x7d "), ("m,!f,*", "a\\|b\\\\~:"),
    ("f", "~"), ("@free", "c\\:d"), ("@suffix", "!")]

/-- The pattern before the block is not scanned, and the marks in the text are. -/
theorem keyed_sample :
    sampleKeyed.IsWritable ∧
      sampleKeyed.toBlock.source = "@gender\x7bm,!f,*:a\\|b\\\\~:|f:~|c\\:d\x7d" ∧
      ((ofHistory {} sampleHistory).interpolate sampleKeyed.toBlock.source "en"
          (.ofList [("gender", .token "n")]) {}).1.1.toOption = some "a|b\\\\~:" ∧
      ((ofHistory {} sampleHistory).interpolateKeyed sampleKeyed "en"
          (.ofList [("gender", .token "n")]) {}).1.toOption =
        some "@gender\x7bf:no\x7d a|b\\\\~:!" := by
  have h : sampleKeyed.IsWritable := by decide +kernel
  have htext : ((ofHistory {} sampleHistory).interpolate sampleKeyed.toBlock.source "en"
      (.ofList [("gender", .token "n")]) {}).1.1 = .ok "a|b\\\\~:" := by decide +kernel
  obtain ⟨-, hkeyed⟩ := keyed_as_written (sound_ofHistory {} sampleHistory) h
  refine ⟨h, by decide +kernel, by rw [htext]; rfl, ?_⟩
  rw [hkeyed, htext]
  decide +kernel

end Inflector
end Concord
