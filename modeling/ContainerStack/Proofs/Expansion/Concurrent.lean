import ContainerStack.Proofs.Expansion.Canonical
import ContainerStack.Proofs.Expansion.Rereading
import ContainerStack.Proofs.Runs

/-!
Expansions with several files open at a time. There is one at every limit, and whatever
the order of the answers, it succeeds with what fetching the files one after another gives.
So the laws of expansion do not depend on the limit: how env files are merged, which
error is reported when all files can be used, what is replaced and what is left alone, how the
result is read back, and what holds at any point of a run of calls.
-/

namespace ContainerStack

open Template (Lookup)

namespace Composition

variable {files : ProjectFiles} {limit : Nat} {lookup : Lookup} {first c d : Composition}
  {e : Expansion}

namespace ExpandsTo

/-- The env files of every service are merged into its environment. -/
theorem merged (h : c.ExpandsTo files limit lookup e) (hd : e.result = .ok d) :
    Expansion.Merged files lookup c d :=
  merged_of_expand ((Expansion.result_eq_ok_iff h).mp hd)

/-- Where all files can be used, the error is that of the first text that is left after
merging. -/
theorem eq_error_iff (h : c.ExpandsTo files limit lookup e)
    (husable : ∀ p ∈ Expansion.paths c, Expansion.Usable files p) {failure : StackError} :
    e.result = .error failure ↔
      Expansion.firstFailure lookup (Expansion.survivingTexts files c) = some failure := by
  rw [Expansion.result_eq_of_usable h husable]
  exact expand_eq_error_iff fun p hp => ⟨_, Expansion.fetch_of_usable (husable p hp)⟩

/-- Nothing but texts is replaced. -/
theorem replaced (h : c.ExpandsTo files limit lookup e) (hd : e.result = .ok d) :
    Expansion.Replaced (Template.expand lookup) c d :=
  replaced_of_expand ((Expansion.result_eq_ok_iff h).mp hd)

/-- The expansion of a normalized composition is read back trimmed. -/
theorem document_toJson (h : c.ExpandsTo files limit lookup e) (hd : e.result = .ok d)
    {doc : Json} (hdocument : Normal.document doc = .ok c) :
    Normal.document d.toJson = .ok d.trimmed :=
  (h.replaced hd).document_toJson hdocument

end ExpandsTo

/-- A call that succeeds. An expansion may have any limit on open files. -/
inductive Next (c d : Composition) : Prop
  | expands {files : ProjectFiles} {limit : Nat} {lookup : Lookup} {e : Expansion}
      (h : c.ExpandsTo files limit lookup e) (hd : e.result = .ok d) : Next c d
  | renormalizes {checking : Checking} (hd : normalize checking c.toJson = .ok d) : Next c d

/-- Open files make no call succeed that would not succeed otherwise. -/
theorem next_iff : c.Next d ↔ ∃ call : Call, call.outcome c = .ok d := by
  constructor
  · intro h
    cases h with
    | expands h hd => exact ⟨.expand _ _, (Expansion.result_eq_ok_iff h).mp hd⟩
    | renormalizes hd => exact ⟨.renormalize _, hd⟩
  · intro h
    obtain ⟨call, hcall⟩ := h
    cases call with
    | expand files lookup => exact .expands ((Expansion.expandsTo_iff le_rfl).mpr rfl) hcall
    | renormalize checking => exact .renormalizes hcall

theorem Follows.next (h : first.Follows c) (hnext : c.Next d) : first.Follows d := by
  obtain ⟨call, hcall⟩ := next_iff.mp hnext
  have hafter := h.after call
  rwa [Composition.after, hcall] at hafter

theorem Follows.reaches (h : first.Follows c) (hreach : Relation.ReflTransGen Next c d) :
    first.Follows d := by
  induction hreach with
  | refl => exact h
  | tail _ hnext ih => exact ih.next hnext

/-- All that runs promise holds whatever the limits are, and no expansion with any limit
fails but because of a file or a variable. -/
theorem sound_of_reaches {checking : Checking} {doc : Json} (h : normalize checking doc = .ok first)
    (hreach : Relation.ReflTransGen Next first c) :
    first.Sound c ∧ ∀ files limit lookup e, c.ExpandsTo files limit lookup e →
      FailsOnly StackError.IsExpansion e.result := by
  obtain ⟨v, tidied, ms, -, -, -, -, hof⟩ := normalize_eq_ok_iff.mp h
  have hfollows := (Follows.of_normalize h).reaches hreach
  exact ⟨hfollows.sound (Normal.coherent_of_documentOf hof),
    fun files limit lookup e => Expansion.failsOnly_of_expandsTo⟩

end Composition

end ContainerStack
