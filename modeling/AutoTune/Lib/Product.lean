import Mathlib.Data.List.Flatten
import Mathlib.Data.List.Nodup
import Mathlib.Data.List.Dedup
import Mathlib.Algebra.BigOperators.Group.List.Basic

/-!
# Products of lists

`product` lists every choice of one item from each axis. How many there are, when no choice is listed
twice, and what a function of the items makes of it follow by induction on the axes.
-/

namespace AutoTune.Lib

variable {α β : Type}

/-- `itertools.product`. -/
def product : List (List α) → List (List α)
  | [] => [[]]
  | axis :: axes => axis.flatMap fun x => (product axes).map (x :: ·)

theorem mem_product_cons {axis : List α} {axes : List (List α)} {choice : List α} :
    choice ∈ product (axis :: axes) ↔ ∃ x ∈ axis, ∃ rest ∈ product axes, choice = x :: rest := by
  simp only [product, List.mem_flatMap, List.mem_map, eq_comm]

/-- Every item of a choice is from some axis. -/
theorem mem_product {axes : List (List α)} {choice : List α} (h : choice ∈ product axes) {x : α}
    (hx : x ∈ choice) : ∃ axis ∈ axes, x ∈ axis := by
  induction axes generalizing choice with
  | nil =>
      rw [product, List.mem_singleton] at h
      rw [h] at hx
      cases hx
  | cons axis axes ih =>
      rcases mem_product_cons.mp h with ⟨y, hy, rest, hrest, rfl⟩
      rcases List.mem_cons.mp hx with rfl | hin
      · exact ⟨axis, List.mem_cons_self, hy⟩
      · rcases ih hrest hin with ⟨axis', haxis', hmem⟩
        exact ⟨axis', List.mem_cons_of_mem _ haxis', hmem⟩

/-- Every choice has an item from each axis. -/
theorem exists_mem_of_product {axes : List (List α)} {choice : List α} (h : choice ∈ product axes)
    {axis : List α} (haxis : axis ∈ axes) : ∃ x ∈ axis, x ∈ choice := by
  induction axes generalizing choice with
  | nil => cases haxis
  | cons axis' axes ih =>
      rcases mem_product_cons.mp h with ⟨x, hx, rest, hrest, rfl⟩
      rcases List.mem_cons.mp haxis with rfl | hin
      · exact ⟨x, hx, List.mem_cons_self⟩
      · rcases ih hrest hin with ⟨y, hy, hmem⟩
        exact ⟨y, hy, List.mem_cons_of_mem x hmem⟩

theorem length_product (axes : List (List α)) : (product axes).length = (axes.map List.length).prod := by
  induction axes with
  | nil => rfl
  | cons axis axes ih =>
      simp [product, List.length_flatMap, ih]

/-- Choosing from mapped axes maps every choice. -/
theorem product_map (f : α → β) (axes : List (List α)) :
    product (axes.map (List.map f)) = (product axes).map (List.map f) := by
  induction axes with
  | nil => rfl
  | cons axis axes ih =>
      simp only [List.map_cons, product, ih, List.flatMap_map, List.map_flatMap, List.map_map]
      rfl

theorem product_ne_nil {axes : List (List α)} (hne : ∀ axis ∈ axes, axis ≠ []) : product axes ≠ [] := by
  induction axes with
  | nil => exact List.cons_ne_nil _ _
  | cons axis axes ih =>
      rcases List.exists_mem_of_ne_nil axis (hne axis List.mem_cons_self) with ⟨x, hx⟩
      rcases List.exists_mem_of_ne_nil _ (ih fun a ha => hne a (List.mem_cons_of_mem _ ha)) with
        ⟨rest, hrest⟩
      exact List.ne_nil_of_mem (mem_product_cons.mpr ⟨x, hx, rest, hrest, rfl⟩)

/-- Where no axis is empty, every item of an axis is in some choice. -/
theorem exists_product_of_mem {axes : List (List α)} (hne : ∀ axis ∈ axes, axis ≠ []) {axis : List α}
    (haxis : axis ∈ axes) {x : α} (hx : x ∈ axis) : ∃ choice ∈ product axes, x ∈ choice := by
  induction axes with
  | nil => cases haxis
  | cons axis' axes ih =>
      have hrest : ∀ a ∈ axes, a ≠ [] := fun a ha => hne a (List.mem_cons_of_mem _ ha)
      rcases List.mem_cons.mp haxis with rfl | hin
      · rcases List.exists_mem_of_ne_nil _ (product_ne_nil hrest) with ⟨rest, hmem⟩
        exact ⟨x :: rest, mem_product_cons.mpr ⟨x, hx, rest, hmem, rfl⟩, List.mem_cons_self⟩
      · rcases List.exists_mem_of_ne_nil axis' (hne axis' List.mem_cons_self) with ⟨y, hy⟩
        rcases ih hrest hin with ⟨rest, hmem, hxin⟩
        exact ⟨y :: rest, mem_product_cons.mpr ⟨y, hy, rest, hmem, rfl⟩, List.mem_cons_of_mem y hxin⟩

/-- No choice is listed twice exactly if no axis lists an item twice. -/
theorem nodup_product {axes : List (List α)} (hne : ∀ axis ∈ axes, axis ≠ []) :
    (product axes).Nodup ↔ ∀ axis ∈ axes, axis.Nodup := by
  induction axes with
  | nil => simp [product]
  | cons axis axes ih =>
      have hrest : ∀ a ∈ axes, a ≠ [] := fun a ha => hne a (List.mem_cons_of_mem _ ha)
      have hinj : ∀ x : α, ((product axes).map (x :: ·)).Nodup ↔ (product axes).Nodup :=
        fun x => List.nodup_map_iff fun _ _ h => (List.cons.inj h).2
      rcases List.exists_mem_of_ne_nil _ (product_ne_nil hrest) with ⟨some, hsome⟩
      -- the choices of two items have no choice in common exactly if the items differ
      have hdisjoint : ∀ x y : α,
          List.Disjoint ((product axes).map (x :: ·)) ((product axes).map (y :: ·)) ↔ x ≠ y := by
        intro x y
        constructor
        · intro hd hxy
          refine hd (List.mem_map_of_mem hsome) ?_
          rw [hxy]
          exact List.mem_map_of_mem hsome
        · intro hxy choice hx hy
          rcases List.mem_map.mp hx with ⟨rest, -, rfl⟩
          rcases List.mem_map.mp hy with ⟨rest', -, heq⟩
          exact hxy (List.cons.inj heq).1.symm
      rw [product, List.nodup_flatMap, List.forall_mem_cons, ← ih hrest, and_comm]
      have hpair : List.Pairwise (Function.onFun List.Disjoint
          fun x => (product axes).map (x :: ·)) axis ↔ axis.Nodup :=
        List.Pairwise.iff fun x y => hdisjoint x y
      rw [hpair]
      constructor
      · rintro ⟨haxis, hall⟩
        rcases List.exists_mem_of_ne_nil axis (hne axis List.mem_cons_self) with ⟨x, hx⟩
        exact ⟨haxis, (hinj x).mp (hall x hx)⟩
      · rintro ⟨haxis, hproduct⟩
        exact ⟨haxis, fun x _ => (hinj x).mpr hproduct⟩

/-- Choices from blocks of fixed lengths are told apart by what they are joined to. -/
theorem product_flatten_inj {axes : List (List (List α))}
    (hlen : ∀ axis ∈ axes, ∀ x ∈ axis, ∀ y ∈ axis, x.length = y.length) {a b : List (List α)}
    (ha : a ∈ product axes) (hb : b ∈ product axes) (heq : a.flatten = b.flatten) : a = b := by
  induction axes generalizing a b with
  | nil =>
      rw [product, List.mem_singleton] at ha hb
      rw [ha, hb]
  | cons axis axes ih =>
      rcases mem_product_cons.mp ha with ⟨x, hx, rest, hrest, rfl⟩
      rcases mem_product_cons.mp hb with ⟨y, hy, rest', hrest', rfl⟩
      rw [List.flatten_cons, List.flatten_cons] at heq
      rcases List.append_inj heq (hlen axis List.mem_cons_self x hx y hy) with ⟨hxy, hjoined⟩
      have hih := ih (fun axis' h => hlen axis' (List.mem_cons_of_mem _ h)) hrest hrest' hjoined
      rw [hxy, hih]

/-- Every choice of blocks with the names of their axis has the names of all axes. -/
theorem product_names {axes : List (List (List α))} {name : α → β} {names : List (List α) → List β}
    (h : ∀ axis ∈ axes, ∀ x ∈ axis, x.map name = names axis) {a : List (List α)}
    (ha : a ∈ product axes) : a.flatten.map name = axes.flatMap names := by
  induction axes generalizing a with
  | nil =>
      rw [product, List.mem_singleton] at ha
      rw [ha]
      rfl
  | cons axis axes ih =>
      rcases mem_product_cons.mp ha with ⟨x, hx, rest, hrest, rfl⟩
      have hih := ih (fun axis' h' => h axis' (List.mem_cons_of_mem _ h')) hrest
      rw [List.flatten_cons, List.map_append, List.flatMap_cons, h axis List.mem_cons_self x hx, hih]

/-- Two functions that tell the same items of a list apart list them twice together. -/
theorem nodup_map_congr {γ : Type} {f : α → β} {g : α → γ} {l : List α}
    (h : ∀ a ∈ l, ∀ b ∈ l, f a = f b ↔ g a = g b) : (l.map f).Nodup ↔ (l.map g).Nodup := by
  unfold List.Nodup
  rw [List.pairwise_map, List.pairwise_map]
  exact ⟨fun hp => hp.imp_of_mem fun ha hb hab => (h _ ha _ hb).not.mp hab,
    fun hp => hp.imp_of_mem fun ha hb hab => (h _ ha _ hb).not.mpr hab⟩

/-- There are as many distinct items as items exactly if none is listed twice. -/
theorem length_dedup_eq_iff [DecidableEq α] {l : List α} : l.length = l.dedup.length ↔ l.Nodup := by
  constructor
  · intro h
    have hself := (List.dedup_sublist l).eq_of_length h.symm
    exact List.dedup_eq_self.mp hself
  · intro h
    rw [h.dedup]

end AutoTune.Lib
