import Mathlib.Data.List.Nodup
import Mathlib.Data.List.Perm.Subperm
import Mathlib.Order.Nat
import Mathlib.Tactic.Common

/-!
# Nested scopes

Scopes lie inside one another, and each has the list of the marked scopes it is inside of. The
number of these is its depth. A list of scopes whose depths are its positions and each of which is
inside the one before is a chain that leaves no marked scope out.
-/

namespace MiniDebugger

/-- What a relation between scopes has to do with the marked scopes around each. -/
structure Nesting {α : Type} (Marked : α → Prop) (Inside : α → α → Prop) (outer : α → List α) :
    Prop where
  irrefl : ∀ a, ¬Inside a a
  trans : ∀ {a b c}, Inside a b → Inside b c → Inside a c
  nodup : ∀ a, (outer a).Nodup
  mem_outer : ∀ {a b}, b ∈ outer a ↔ Marked b ∧ Inside a b

namespace Nesting

variable {α : Type} {Marked : α → Prop} {Inside : α → α → Prop} {outer : α → List α}
  {l before after : List α} {a b : α}

/-- An inner scope is deeper. -/
theorem length_lt (h : Nesting Marked Inside outer) (hb : Marked b) (hab : Inside a b) :
    (outer b).length < (outer a).length := by
  have hnew : b ∉ outer b := fun hmem => h.irrefl b (h.mem_outer.mp hmem).2
  have hsub : b :: outer b ⊆ outer a := by
    intro c hc
    obtain rfl | hc := List.mem_cons.mp hc
    · exact h.mem_outer.mpr ⟨hb, hab⟩
    · obtain ⟨hmarked, hinside⟩ := h.mem_outer.mp hc
      exact h.mem_outer.mpr ⟨hmarked, h.trans hab hinside⟩
  exact ((List.nodup_cons.mpr ⟨hnew, h.nodup b⟩).subperm hsub).length_le

/-- Of nested scopes in the order of their depth each is inside those before it. -/
theorem pairwise_inside (h : Nesting Marked Inside outer) (hmarked : ∀ a ∈ l, Marked a)
    (hnested : l.Pairwise fun a b => Inside a b ∨ Inside b a)
    (hsorted : l.Pairwise fun a b => (outer a).length ≤ (outer b).length) :
    l.Pairwise fun a b => Inside b a := by
  refine (hnested.and hsorted).imp_of_mem fun {a b} _ hb hab => ?_
  obtain hinside | hinside := hab.1
  · exact absurd (h.length_lt (hmarked b hb) hinside) (not_lt.mpr hab.2)
  · exact hinside

theorem nodup_of_chain (h : Nesting Marked Inside outer)
    (hchain : l.Pairwise fun a b => Inside b a) : l.Nodup := by
  refine hchain.imp fun {a b} hba heq => ?_
  exact h.irrefl a (heq ▸ hba)

/-- In a chain that leaves nothing out the scopes around one are those before it. -/
theorem outer_perm (h : Nesting Marked Inside outer)
    (hmarked : ∀ b ∈ before ++ a :: after, Marked b)
    (hchain : (before ++ a :: after).Pairwise fun a b => Inside b a)
    (hclosed : ∀ b ∈ outer a, b ∈ before ++ a :: after) : (outer a).Perm before := by
  obtain ⟨hbefore, hrest, hcross⟩ := List.pairwise_append.mp hchain
  have hnodup := h.nodup_of_chain hbefore
  refine (List.perm_ext_iff_of_nodup (h.nodup a) hnodup).mpr fun b => ⟨fun hb => ?_, fun hb => ?_⟩
  · have hinside := (h.mem_outer.mp hb).2
    obtain hb | hb := List.mem_append.mp (hclosed b hb)
    · exact hb
    obtain rfl | hb := List.mem_cons.mp hb
    · exact absurd hinside (h.irrefl _)
    · exact absurd (h.trans hinside ((List.pairwise_cons.mp hrest).1 b hb)) (h.irrefl _)
  · exact h.mem_outer.mpr ⟨hmarked b (List.mem_append_left _ hb),
      hcross b hb a List.mem_cons_self⟩

/-- Where depths are positions, the scopes around one of a chain are those before it. -/
theorem outer_perm_of_length (h : Nesting Marked Inside outer)
    (hmarked : ∀ b ∈ before ++ a :: after, Marked b)
    (hchain : (before ++ a :: after).Pairwise fun a b => Inside b a)
    (hdepth : (outer a).length = before.length) : before.Perm (outer a) := by
  obtain ⟨hbefore, _, hcross⟩ := List.pairwise_append.mp hchain
  have hnodup := h.nodup_of_chain hbefore
  have hsub : before ⊆ outer a := fun b hb =>
    h.mem_outer.mpr ⟨hmarked b (List.mem_append_left _ hb), hcross b hb a List.mem_cons_self⟩
  exact (hnodup.subperm hsub).perm_of_length_le hdepth.le

/-- A list of scopes has its depths as positions and each inside the one before, if and only if it
is a chain that leaves out no marked scope around one of its scopes. -/
theorem positions_iff (h : Nesting Marked Inside outer) (hmarked : ∀ a ∈ l, Marked a) :
    ((∀ before a after, l = before ++ a :: after → (outer a).length = before.length) ∧
      l.IsChain fun a b => Inside b a) ↔
    (l.Pairwise fun a b => Inside b a) ∧ ∀ a ∈ l, ∀ b ∈ outer a, b ∈ l := by
  have htrans : IsTrans α fun a b => Inside b a := ⟨fun _ _ _ hab hbc => h.trans hbc hab⟩
  rw [List.isChain_iff_pairwise, and_comm]
  refine and_congr_right fun hchain => ⟨fun hdepth a ha b hb => ?_, ?_⟩
  · obtain ⟨before, after, rfl⟩ := List.append_of_mem ha
    have hperm := h.outer_perm_of_length hmarked hchain (hdepth before a after rfl)
    exact List.mem_append_left _ (hperm.mem_iff.mpr hb)
  · rintro hclosed before a after rfl
    exact (h.outer_perm hmarked hchain
      (hclosed a (List.mem_append_right _ List.mem_cons_self))).length_eq

/-- Chains of the same scopes are the same. -/
theorem chain_unique (h : Nesting Marked Inside outer) {l' : List α}
    (hchain : l.Pairwise fun a b => Inside b a) (hchain' : l'.Pairwise fun a b => Inside b a)
    (hmem : ∀ a, a ∈ l ↔ a ∈ l') : l = l' := by
  refine List.Perm.eq_of_pairwise (fun a b _ _ hba hab => ?_) hchain hchain'
    ((List.perm_ext_iff_of_nodup (h.nodup_of_chain hchain) (h.nodup_of_chain hchain')).mpr hmem)
  exact absurd (h.trans hba hab) (h.irrefl _)

end Nesting

end MiniDebugger
