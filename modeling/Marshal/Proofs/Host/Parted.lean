import Marshal.Proofs.Host.Alike

/-!
# `Proofs.Host.Parted` — a copy leads to nothing that its source leads to

When a copy has been made, its source leads to what has been there before, and the copy to what has
been made for it, all of it live. So the two have no handle in common but null, which is all that a
copy of nothing leads to.

## Contents

* `Copied.copy_live`, `owned_before` — what the copy owns and what its source owns;
* `Parted`, `Copied.parted`, `Parted.null` — nothing in common.
-/

namespace Marshal.Host

variable {made : List (Handle × Use)} {w w' : Host} {p p' q : Payload}

/-- **All that a copy owns is live.** -/
theorem Copied.copy_live (h : Copied w w' p p') : ∀ q, Owned w'.collections [p'] q → Live w' q := by
  induction h with
  | plain taken =>
    intro q hq u k hk
    obtain rfl := owned_of_not_collection (by rintro c rfl; cases taken) hq
    rw [taken] at hk
    cases hk
  | tensor source copy =>
    intro q hq u k hk
    obtain rfl := owned_of_not_collection (by simp) hq
    obtain ⟨rfl, rfl⟩ := Prod.mk.inj (Option.some.inj hk)
    exact Table.contains_of_get? copy
  | numericArray source copy =>
    intro q hq u k hk
    obtain rfl := owned_of_not_collection (by simp) hq
    obtain ⟨rfl, rfl⟩ := Prod.mk.inj (Option.some.inj hk)
    exact Table.contains_of_get? copy
  | @collection c c' nodes nodes' source copy names inner ih =>
    intro q hq
    rcases owned_collection copy hq with rfl | ⟨n, hn, hq⟩
    · rintro u k ⟨⟩
      exact Table.contains_of_get? copy
    · have hlen : nodes'.length = nodes.length := by simpa using congrArg List.length names
      rw [← List.map_snd_zip (Nat.le_of_eq hlen)] at hn
      obtain ⟨m, hm, rfl⟩ := List.mem_map.mp hn
      exact ih m hm q hq

/-- What is owned after changes to younger numbers was owned before, if that was live. -/
theorem owned_before (bounded : Bounded w) (confined : Confined w.nextId w w')
    (live : ∀ q, Owned w.collections [p] q → Live w q) (h : Owned w'.collections [p] q) :
    Owned w.collections [p] q := by
  induction h with
  | here mem => exact .here mem
  | @inside c nodes n _ found mem ih =>
    have hc : c < w.nextId := bounded .collection c (live _ ih .collection c rfl)
    rw [confined.collections c hc] at found
    exact .inside ih found mem

/-- Contents and a copy of them lead to live things only, the contents to older ones than the copy. -/
structure Parted (w w' : Host) (p p' : Payload) : Prop where
  history : ∃ made, History made w'
  source : NullOrLive w' p
  copy : NullOrLive w' p'
  below : ∀ h, Reaches w'.collections p h → h = Handle.null ∨ h < w.nextId
  above : ∀ h, Reaches w'.collections p' h → h = Handle.null ∨ w.nextId ≤ h

/-- What is live stays so when younger numbers change. -/
theorem Live.after (bounded : Bounded w) (confined : Confined w.nextId w w') (live : Live w q) :
    Live w' q := by
  intro u h stored
  have hnamed := live u h stored
  rw [(confined.untouched (bounded u h hnamed)).names_eq stored]
  exact hnamed

/-- **A copy is parted from its source.** -/
theorem Copied.parted (past : History made w) (hev : Evolves w w')
    (confined : Confined w.nextId w w') (copied : Copied w w' p p') (new : New w.nextId p') :
    Parted w w' p p' := by
  have bounded := past.sound.is_bounded
  have before : ∀ q, Owned w'.collections [p] q → Owned w.collections [p] q :=
    fun q hq => owned_before bounded confined copied.live hq
  have younger : ∀ q, Owned w'.collections [p'] q → New w.nextId q := by
    intro q hq
    refine Confined.new_of_owned confined.closed ?_ hq
    intro r hr
    rw [List.mem_singleton.mp hr]
    exact new
  constructor
  case history => exact hev.history ⟨made, past⟩
  case source =>
    intro q u h hq stored
    exact .inr ((copied.live q (before q hq)).after bounded confined u h stored)
  case copy =>
    intro q u h hq stored
    exact .inr (copied.copy_live q hq u h stored)
  case below =>
    rintro h (hnull | ⟨q, u, hq, stored⟩ | ⟨c, nodes, hc, found, mem⟩)
    · exact .inl hnull
    · exact .inr (bounded u h (copied.live q (before q hq) u h stored))
    · -- the collection is an old one, so its nodes are the old ones
      have hold := before _ hc
      have hlt : c < w.nextId := bounded .collection c (copied.live _ hold .collection c rfl)
      rw [confined.collections c hlt] at found
      exact .inr (bounded .node h (names_of_ownsNode past ⟨c, nodes, hold, found, mem⟩))
  case above =>
    rintro h (hnull | ⟨q, u, hq, stored⟩ | ⟨c, nodes, hc, found, mem⟩)
    · exact .inl hnull
    · exact .inr (younger q hq u h stored)
    · obtain ⟨n, hn, rfl⟩ := List.mem_map.mp mem
      exact .inr (confined.closed c nodes n (younger _ hc _ _ rfl) found hn).1

/-- Null leads nowhere. -/
theorem reaches_null (past : ∃ made, History made w) (kind : ContainerKind) {h : Handle}
    (hreach : Reaches w.collections (.ofHandle kind.kind Handle.null) h) : h = Handle.null := by
  have hself : ∀ q, Owned w.collections [.ofHandle kind.kind Handle.null] q →
      q = .ofHandle kind.kind Handle.null := by
    intro q hq
    have leaf : ∀ c, Payload.ofHandle kind.kind Handle.null = .collection c →
        w.collections.get? c = none := by
      intro c hc
      cases kind <;> cases hc
      exact (untaken_null past).2.1
    exact ((owned_cons_leaf leaf).mp hq).resolve_right not_owned_nil
  rcases hreach with hnull | ⟨q, u, hq, stored⟩ | ⟨c, nodes, hc, found, -⟩
  · exact hnull
  · rw [hself q hq] at stored
    cases kind <;> exact (Prod.mk.inj (Option.some.inj stored)).2.symm
  · have hc' := hself _ hc
    cases kind <;> cases hc'
    rw [(untaken_null past).2.1] at found
    cases found

theorem Parted.null (past : ∃ made, History made w) (kind : ContainerKind) :
    Parted w w (.ofHandle kind.kind Handle.null) (.ofHandle kind.kind Handle.null) where
  history := past
  source q u _ hq stored := .inl (reaches_null past kind (.inr (.inl ⟨q, u, hq, stored⟩)))
  copy q u _ hq stored := .inl (reaches_null past kind (.inr (.inl ⟨q, u, hq, stored⟩)))
  below _ hreach := .inl (reaches_null past kind hreach)
  above _ hreach := .inl (reaches_null past kind hreach)

end Marshal.Host
