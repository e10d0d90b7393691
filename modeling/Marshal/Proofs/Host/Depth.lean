import Marshal.Proofs.Host.Copy

/-!
# `Proofs.Host.Depth` — the depth of a copy does not matter

Copying is limited to depths that depend on the numbers given out. A copy that there is at some depth is
the same at every greater one. So is the copy that the host makes, if there is one; and a collection
that can be copied at any depth at all does not contain itself, so the host makes that copy too.

## Contents

* `copyNested_mono` — the same copy at a greater depth;
* `copyNested_of_copyCollection` — the copy that the host makes is one at some depth;
* `Copied.acyclic` — what has a copy does not contain itself;
* `copyCollection_of_copyNested` — a copy at any depth is the one that the host makes.
-/

namespace Marshal.Host

variable {w : Host} {d d' : Nat}

section Nested

variable {nested nested' : Handle → Host → Option Handle × Host}

/-- Contents that can be copied are copied in the same way if the collection among them is. -/
theorem copyPayload_mono {p : Payload}
    (hnested : ∀ c, p = .collection c → (nested c w).1.isSome = true → nested' c w = nested c w)
    (hsome : (copyPayload nested w p).1.isSome = true) :
    copyPayload nested' w p = copyPayload nested w p := by
  cases p with
  | collection c =>
    have hc := hnested c rfl ((Option.isSome_map ..).symm.trans hsome)
    simp only [copyPayload, hc]
  | _ => rfl

/-- Nodes that can be copied are copied in the same way if the copies nested in theirs are. -/
theorem copyNodes_mono
    (hnested : ∀ c w, (nested c w).1.isSome = true → nested' c w = nested c w) {copy : Handle}
    {nodes : List Node} (hsome : (copyNodes nested copy w nodes).1.isSome = true) :
    copyNodes nested' copy w nodes = copyNodes nested copy w nodes := by
  induction nodes generalizing w with
  | nil => rfl
  | cons n rest ih =>
    rw [copyNodes] at hsome
    rcases hp : copyPayload nested w n.payload with ⟨_ | p, w₁⟩
    · rw [hp] at hsome
      cases hsome
    · rw [hp] at hsome
      have hsame := copyPayload_mono (fun c _ hc => hnested c w hc)
        (show (copyPayload nested w n.payload).1.isSome = true by rw [hp]; rfl)
      rw [copyNodes, copyNodes, hsame, hp]
      exact ih hsome

end Nested

/-- **A copy that there is at some depth is the same at a greater one.** -/
theorem copyNested_mono (hle : d ≤ d') {c : Handle}
    (hsome : (copyNested d c w).1.isSome = true) : copyNested d' c w = copyNested d c w := by
  induction d generalizing d' c w with
  | zero => cases hsome
  | succ d ih =>
    obtain ⟨d', rfl⟩ : ∃ e, d' = e + 1 := ⟨d' - 1, by omega⟩
    rw [copyNested, copyOnce] at hsome
    split at hsome
    · cases hsome
    · next nodes found =>
      rw [copyNested, copyNested, copyOnce, copyOnce, found]
      exact copyNodes_mono (fun c w hc => ih (Nat.le_of_succ_le_succ hle) hc) hsome

/-- Copies at two depths, if there are any, are the same. -/
theorem copyNested_agree {c : Handle} (hd : (copyNested d c w).1.isSome = true)
    (hd' : (copyNested d' c w).1.isSome = true) : copyNested d c w = copyNested d' c w := by
  rcases Nat.le_total d d' with hle | hle
  · exact (copyNested_mono hle hd).symm
  · exact copyNested_mono hle hd'

/-- Nodes are copied at some depth if every collection among them is. The depth for one of them is
enough for those that need less. -/
theorem copyNodes_at_depth {nested : Handle → Host → Option Handle × Host}
    (hnested : ∀ c w, (nested c w).1.isSome = true → ∃ d, copyNested d c w = nested c w)
    {copy : Handle} {nodes : List Node} (hsome : (copyNodes nested copy w nodes).1.isSome = true) :
    ∃ d, copyNodes (copyNested d) copy w nodes = copyNodes nested copy w nodes := by
  induction nodes generalizing w with
  | nil => exact ⟨0, rfl⟩
  | cons n rest ih =>
    have hpayload : ∀ p, (copyPayload nested w p).1.isSome = true →
        ∃ d, ∀ d' ≥ d, copyPayload (copyNested d') w p = copyPayload nested w p := by
      intro p hp
      cases p with
      | collection c =>
        obtain ⟨d, hd⟩ := hnested c w ((Option.isSome_map ..).symm.trans hp)
        refine ⟨d, fun d' hle => copyPayload_mono ?_ hp⟩
        rintro _ ⟨⟩ hc
        exact (copyNested_mono hle (by rwa [hd])).trans hd
      | _ => exact ⟨0, fun _ _ => rfl⟩
    rw [copyNodes] at hsome
    rcases hp : copyPayload nested w n.payload with ⟨_ | p, w₁⟩
    · rw [hp] at hsome
      cases hsome
    · rw [hp] at hsome
      obtain ⟨d₁, hfirst⟩ := hpayload n.payload (by rw [hp]; rfl)
      obtain ⟨d₂, hrest⟩ := ih hsome
      refine ⟨max d₁ d₂, ?_⟩
      rw [copyNodes, copyNodes, hfirst _ (Nat.le_max_left ..), hp]
      refine Eq.trans ?_ hrest
      exact copyNodes_mono (fun c w hc => copyNested_mono (Nat.le_max_right ..) hc)
        (by rwa [hrest])

/-- **The copy that the host makes**, if there is one, is a copy at some depth. -/
theorem copyNested_of_copyCollection {c : Handle} (hsome : (w.copyCollection c).1.isSome = true) :
    ∃ d, copyNested d c w = w.copyCollection c := by
  have rule : CopyRule fun c w r => r.1.isSome = true → ∃ d, copyNested d c w = r := by
    constructor
    · intro c w h
      cases h
    · intro nested hnested c w nodes found h
      obtain ⟨d, hd⟩ := copyNodes_at_depth hnested h
      refine ⟨d + 1, ?_⟩
      rw [copyNested, copyOnce, found]
      exact hd
  exact rule.copyCollection w c hsome

/-- What is owned is owned by one of the contents that the work begins with. -/
theorem Owned.exists_mem {live : Table (List Node)} {work : List Payload} {q : Payload}
    (hq : Owned live work q) : ∃ p ∈ work, Owned live [p] q := by
  induction hq with
  | @here p mem => exact ⟨p, mem, owned_self⟩
  | inside _ found mem ih =>
    obtain ⟨p, hp, outer⟩ := ih
    exact ⟨p, hp, .inside outer found mem⟩

/-- **What has a copy does not contain itself**, for a copy has a last node on every way down. -/
theorem Copied.acyclic {w w' : Host} {c c' : Handle}
    (h : Copied w w' (.collection c) (.collection c')) : Acyclic w.collections c := by
  suffices hall : ∀ p p', Copied w w' p p' → ∀ e nodes, Owned w.collections [p] (.collection e) →
      w.collections.get? e = some nodes →
        ¬ Owned w.collections (nodes.map (·.payload)) (.collection e) from hall _ _ h
  intro p p' hcopied
  induction hcopied with
  | plain taken =>
    intro e nodes howned
    obtain rfl := owned_of_not_collection (by rintro c rfl; cases taken) howned
    cases taken
  | tensor => exact fun e nodes howned => by cases owned_of_not_collection (by simp) howned
  | numericArray => exact fun e nodes howned => by cases owned_of_not_collection (by simp) howned
  | @collection c c' nodes nodes' source copy names inner ih =>
    have hlen : nodes'.length = nodes.length := by simpa using congrArg List.length names
    have hinner : ∀ n ∈ nodes, ∀ e nodes₁, Owned w.collections [n.payload] (.collection e) →
        w.collections.get? e = some nodes₁ →
          ¬ Owned w.collections (nodes₁.map (·.payload)) (.collection e) := by
      intro n hn
      rw [← List.map_fst_zip (Nat.le_of_eq hlen.symm)] at hn
      obtain ⟨q, hq, rfl⟩ := List.mem_map.mp hn
      exact ih q hq
    intro e nodes₁ howned found hcycle
    rcases owned_collection source howned with heq | ⟨n, hn, howned⟩
    · -- the way back to the collection leads through one of its nodes, which would contain it too
      obtain rfl := Payload.collection.inj heq
      obtain rfl := Option.some.inj (source.symm.trans found)
      obtain ⟨q, hq, hback⟩ := hcycle.exists_mem
      obtain ⟨n, hn, rfl⟩ := List.mem_map.mp hq
      exact hinner n hn e nodes hback found hcycle
    · exact hinner n hn e nodes₁ howned found hcycle

/-- **A copy at any depth is the one that the host makes**, if the collection only refers to numbers
given out. -/
theorem copyCollection_of_copyNested (past : ∃ made, History made w) {c : Handle}
    (named : ∀ q u h, Owned w.collections [.collection c] q → q.stored = some (u, h) →
      h < w.nextId) (hsome : (copyNested d c w).1.isSome = true) :
    w.copyCollection c = copyNested d c w := by
  obtain ⟨made, past⟩ := past
  have bounded := past.sound.is_bounded
  have start : Confined w.nextId w w := .refl (Nat.le_refl _) bounded.closed
  obtain ⟨k, hk⟩ := Option.isSome_iff_exists.mp hsome
  have copied : Copied w (copyNested d c w).2 (.collection c) (.collection k) :=
    ((Resembles.copyRule w _).copyNested d c w).copied bounded start
      (fun q u h hq hs => .inl (named q u h hq hs)) (Nat.le_refl _) k hk
  have allowed : (w.copyCollection c).1.isSome = true :=
    copyFrom_isSome bounded (copied.acyclic.shallow bounded.size_le) copied.live start
  obtain ⟨d', hd'⟩ := copyNested_of_copyCollection allowed
  rw [← hd'] at allowed ⊢
  exact copyNested_agree allowed hsome

end Marshal.Host
