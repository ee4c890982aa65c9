import Mathlib.Data.Finset.Card
import Mathlib.Data.List.SplitBy
import ResourceQuery.Proofs.Store.Content

/-!
# Groups as classes

Frames are sorted by what they are grouped by and then cut where it changes. There is one group for
every content that the group columns have, whatever the directions in which the frames are sorted
and whatever their order before.

* `splitBy_eq_filter`, `length_splitBy_eq_card`: cutting a list gives the classes of a function
  whose equal values stand next to each other, as many as it has values;
* `pairwise_sortByKeys`: frames sorted by proper cells are in order;
* `Statement.length_unorderedGroups`: how many groups some frames form;
* `Statement.members_perm`, `Statement.shown_mem`: what the members of groups are, and which of them
  is shown;
* `Statement.classes_unorderedGroups`: groups are the classes of what the group columns hold.
-/

namespace ResourceQuery

/-! ## Cutting a list -/

section Cutting

variable {α β : Type}

theorem eq_head_of_isChain {r : α → α → Bool} {g : α → β} {a : α} {xs : List α}
    (hr : ∀ b ∈ a :: xs, ∀ c ∈ a :: xs, r b c = true → g b = g c)
    (h : (a :: xs).IsChain fun b c => r b c = true) : ∀ c ∈ a :: xs, g c = g a := by
  induction xs generalizing a with
  | nil =>
    intro c hc
    rw [List.mem_singleton.1 hc]
  | cons b xs ih =>
    rw [List.isChain_cons_cons] at h
    have hrest := ih (fun x hx y hy => hr x (List.mem_cons_of_mem _ hx) y
      (List.mem_cons_of_mem _ hy)) h.2
    intro c hc
    rcases List.mem_cons.1 hc with rfl | hc
    · rfl
    · exact (hrest c hc).trans (hr a (by simp) b (by simp) h.1).symm

/-- The parts of a list that is cut where a function changes are of one value each. -/
theorem eq_of_mem_splitBy {r : α → α → Bool} {g : α → β} {xs : List α}
    (hr : ∀ a ∈ xs, ∀ b ∈ xs, r a b = true ↔ g a = g b) {part : List α}
    (hpart : part ∈ xs.splitBy r) {a b : α} (ha : a ∈ part) (hb : b ∈ part) : g a = g b := by
  have hmem : ∀ c ∈ part, c ∈ xs := by
    intro c hc
    rw [← List.flatten_splitBy r xs]
    exact List.mem_flatten_of_mem hpart hc
  obtain ⟨d, rest, rfl⟩ := List.exists_cons_of_ne_nil (List.ne_nil_of_mem ha)
  have hhead := eq_head_of_isChain
    (fun b hb c hc => (hr b (hmem b hb) c (hmem c hc)).1) (List.isChain_of_mem_splitBy hpart)
  exact (hhead a ha).trans (hhead b hb).symm

/-- Different parts are of different values, when equal values stand next to each other. -/
theorem pairwise_ne_of_flatten {r : α → α → Bool} {g : α → β} {parts : List (List α)}
    (hr : ∀ a ∈ parts.flatten, ∀ b ∈ parts.flatten, r a b = true ↔ g a = g b)
    (hnext : ∀ a b c, [a, b, c].Sublist parts.flatten → g a = g c → g a = g b)
    (hone : ∀ part ∈ parts, ∀ a ∈ part, ∀ b ∈ part, g a = g b)
    (hbreak : parts.IsChain fun p q => ∃ hp hq, r (p.getLast hp) (q.head hq) = false) :
    parts.Pairwise fun p q => ∀ a ∈ p, ∀ b ∈ q, g a ≠ g b := by
  induction parts with
  | nil => exact .nil
  | cons p parts ih =>
    rw [List.flatten_cons] at hr hnext
    rw [List.forall_mem_cons] at hone
    refine List.pairwise_cons.2 ⟨?_, ih
      (fun a ha b hb => hr a (List.mem_append_right _ ha) b (List.mem_append_right _ hb))
      (fun a b c h => hnext a b c (h.trans (List.sublist_append_right ..))) hone.2 hbreak.tail⟩
    intro q' hq' a ha b hb hab
    cases parts with
    | nil => cases hq'
    | cons q parts =>
      obtain ⟨⟨hp, hq, hlast⟩, -⟩ := List.isChain_cons_cons.1 hbreak
      obtain ⟨h, tail, rfl⟩ := List.exists_cons_of_ne_nil hq
      have hz := List.getLast_mem hp
      set z := p.getLast hp
      have hflat : ((h :: tail) :: parts).flatten = h :: (tail ++ parts.flatten) := rfl
      rw [hflat] at hr hnext
      have hne : g z ≠ g h := fun heq => by
        have := (hr z (List.mem_append_left _ hz) h (by simp)).2 heq
        rw [List.head_cons, this] at hlast
        cases hlast
      have hzb : g z = g b := (hone.1 z hz a ha).trans hab
      have hb' : b ∈ h :: (tail ++ parts.flatten) := hflat ▸ List.mem_flatten_of_mem hq' hb
      rcases List.mem_cons.1 hb' with rfl | hb'
      · exact hne hzb
      · refine hne (hnext z h b ?_ hzb)
        exact (List.singleton_sublist.2 hz).append
          (.cons_cons _ (List.singleton_sublist.2 hb'))

/-- A list cut where a function changes is cut into the classes of the function, when equal values
stand next to each other. -/
theorem splitBy_eq_filter [DecidableEq β] {r : α → α → Bool} {g : α → β} {xs : List α}
    (hr : ∀ a ∈ xs, ∀ b ∈ xs, r a b = true ↔ g a = g b)
    (hnext : ∀ a b c, [a, b, c].Sublist xs → g a = g c → g a = g b) :
    (∀ part ∈ xs.splitBy r, ∀ a ∈ part, part = xs.filter fun b => g b = g a) ∧
      (xs.splitBy r).Pairwise fun p q => ∀ a ∈ p, ∀ b ∈ q, g a ≠ g b := by
  have hone : ∀ part ∈ xs.splitBy r, ∀ a ∈ part, ∀ b ∈ part, g a = g b :=
    fun part hpart a ha b hb => eq_of_mem_splitBy hr hpart ha hb
  have hdiffer : (xs.splitBy r).Pairwise fun p q => ∀ a ∈ p, ∀ b ∈ q, g a ≠ g b :=
    pairwise_ne_of_flatten (by rwa [List.flatten_splitBy]) (by rwa [List.flatten_splitBy]) hone
      (List.isChain_getLast_head_splitBy r xs)
  refine ⟨fun part hpart a ha => ?_, hdiffer⟩
  obtain ⟨before, after, hparts⟩ := List.append_of_mem hpart
  have hflat : xs = before.flatten ++ (part ++ after.flatten) := by
    rw [← List.flatten_cons, ← List.flatten_append, ← hparts, List.flatten_splitBy]
  rw [hparts, List.pairwise_append, List.pairwise_cons] at hdiffer
  obtain ⟨-, ⟨hafter, -⟩, hbefore⟩ := hdiffer
  have hnone : ∀ b ∈ before.flatten, ¬ decide (g b = g a) = true := by
    intro b hb heq
    obtain ⟨p, hp, hb⟩ := List.mem_flatten.1 hb
    exact hbefore p hp part (List.mem_cons_self ..) b hb a ha (of_decide_eq_true heq)
  have hnone' : ∀ b ∈ after.flatten, ¬ decide (g b = g a) = true := by
    intro b hb heq
    obtain ⟨p, hp, hb⟩ := List.mem_flatten.1 hb
    exact hafter p hp a ha b hb (of_decide_eq_true heq).symm
  have hall : ∀ b ∈ part, decide (g b = g a) = true := fun b hb =>
    decide_eq_true (hone part hpart b hb a ha)
  conv_rhs => rw [hflat]
  rw [List.filter_append, List.filter_append, List.filter_eq_nil_iff.2 hnone,
    List.filter_eq_nil_iff.2 hnone', List.filter_eq_self.2 hall, List.append_nil,
    List.nil_append]

/-- A list cut where a function changes has as many parts as the function has values, when equal
values stand next to each other. -/
theorem length_splitBy_eq_card [DecidableEq β] {r : α → α → Bool} {g : α → β} {xs : List α}
    (hr : ∀ a ∈ xs, ∀ b ∈ xs, r a b = true ↔ g a = g b)
    (hnext : ∀ a b c, [a, b, c].Sublist xs → g a = g c → g a = g b) :
    (xs.splitBy r).length = (xs.map g).toFinset.card := by
  obtain ⟨-, hdiffer⟩ := splitBy_eq_filter hr hnext
  have hhead : ∀ part ∈ xs.splitBy r, ∃ a ∈ part, part.head?.map g = some (g a) := by
    intro part hpart
    obtain ⟨a, rest, rfl⟩ := List.exists_cons_of_ne_nil (List.ne_nil_of_mem_splitBy hpart)
    exact ⟨a, List.mem_cons_self .., rfl⟩
  have hnodup : ((xs.splitBy r).map fun part => part.head?.map g).Nodup := by
    refine List.pairwise_map.2 (hdiffer.imp_of_mem fun {p q} hp hq hpq heq => ?_)
    obtain ⟨a, ha, hpa⟩ := hhead p hp
    obtain ⟨b, hb, hqb⟩ := hhead q hq
    exact hpq a ha b hb (Option.some.inj (hpa.symm.trans (heq.trans hqb)))
  have hset : ((xs.splitBy r).map fun part => part.head?.map g).toFinset =
      (xs.map g).toFinset.image some := by
    ext o
    simp only [List.mem_toFinset, List.mem_map, Finset.mem_image]
    constructor
    · rintro ⟨part, hpart, rfl⟩
      obtain ⟨a, ha, hpa⟩ := hhead part hpart
      refine ⟨g a, ⟨a, ?_, rfl⟩, hpa.symm⟩
      rw [← List.flatten_splitBy r xs]
      exact List.mem_flatten_of_mem hpart ha
    · rintro ⟨_, ⟨a, ha, rfl⟩, rfl⟩
      rw [← List.flatten_splitBy r xs] at ha
      obtain ⟨part, hpart, ha⟩ := List.mem_flatten.1 ha
      obtain ⟨b, hb, hpb⟩ := hhead part hpart
      exact ⟨part, hpart, hpb.trans (congrArg some (eq_of_mem_splitBy hr hpart hb ha))⟩
  rw [← List.length_map (fun part : List α => part.head?.map g),
    ← List.toFinset_card_of_nodup hnodup, hset,
    Finset.card_image_of_injective _ (Option.some_injective _)]

end Cutting

/-! ## Sorting -/

section Sorting

variable {α : Type} {directions : List Bool} {key : α → List Cell} {xs : List α}

/-- Sorting puts elements in order when the order is a total preorder on them. -/
theorem pairwise_mergeSort_of_mem {le : α → α → Bool} {p : α → Prop} (hp : ∀ a ∈ xs, p a)
    (htrans : ∀ a b c, p a → p b → p c → le a b → le b c → le a c)
    (htotal : ∀ a b, p a → p b → le a b || le b a) : (xs.mergeSort le).Pairwise (le · ·) := by
  let le' : {a // p a} → {a // p a} → Bool := fun a b => le a.1 b.1
  have hsorted : (xs.attachWith p hp |>.mergeSort le').Pairwise (le' · ·) :=
    List.pairwise_mergeSort (fun a b c => htrans a.1 b.1 c.1 a.2 b.2 c.2)
      (fun a b => htotal a.1 b.1 a.2 b.2) _
  have hval : (xs.attachWith p hp |>.mergeSort le').map (·.1) = xs.mergeSort le := by
    rw [List.map_mergeSort (s := le) fun _ _ _ _ => rfl]
    simp
  rw [← hval, List.pairwise_map]
  exact hsorted

theorem sortByKeys_perm (directions : List Bool) (key : α → List Cell) (xs : List α) :
    (sortByKeys directions key xs).Perm xs := by
  have h := (List.mergeSort_perm (xs.map fun x => (key x, x))
    fun a b => keysOrder (directions.zip (a.1.zip b.1)) != .gt).map (·.2)
  rw [List.map_map] at h
  simpa [sortByKeys, Function.comp_def] using h

/-- Elements sorted by proper cells are in order. -/
theorem pairwise_sortByKeys (directions : List Bool) {n : Nat}
    (hproper : ∀ x ∈ xs, AllProper (key x)) (hlen : ∀ x ∈ xs, (key x).length = n) :
    (sortByKeys directions key xs).Pairwise
      fun a b => keysOrder (directions.zip ((key a).zip (key b))) ≠ .gt := by
  have hsorted : ((xs.map fun x => (key x, x)).mergeSort
      fun a b => keysOrder (directions.zip (a.1.zip b.1)) != .gt).Pairwise
        (fun a b => keysOrder (directions.zip (a.1.zip b.1)) != .gt) := by
    refine pairwise_mergeSort_of_mem (p := fun a => AllProper a.1 ∧ a.1.length = n) ?_ ?_ ?_
    · rintro _ ha
      obtain ⟨x, hx, rfl⟩ := List.mem_map.1 ha
      exact ⟨hproper x hx, hlen x hx⟩
    · rintro a b c ⟨ha, hla⟩ ⟨hb, hlb⟩ ⟨hc, hlc⟩ hab hbc
      rw [bne_iff_ne] at hab hbc ⊢
      exact keysOrder_trans ha hb hc (hla.trans hlb.symm) (hlb.trans hlc.symm) hab hbc
    · rintro a b - -
      rw [keysOrder_swap directions a.1 b.1]
      cases keysOrder (directions.zip (a.1.zip b.1)) <;> rfl
  have hkey : ∀ p ∈ (xs.map fun x => (key x, x)).mergeSort
      (fun a b => keysOrder (directions.zip (a.1.zip b.1)) != .gt), p.1 = key p.2 := by
    intro p hp
    obtain ⟨x, -, rfl⟩ := List.mem_map.1 (List.mem_mergeSort.1 hp)
    rfl
  rw [sortByKeys, List.pairwise_map]
  refine hsorted.imp_of_mem fun {a b} ha hb h => ?_
  rwa [bne_iff_ne, hkey a ha, hkey b hb] at h

end Sorting

/-! ## Groups -/

namespace Statement

variable {s : Statement} {frames : List Frame}

/-- What the group columns of a frame hold. -/
def groupContent (s : Statement) (f : Frame) : List Cell.Content :=
  contents (s.group.map (·.cell f))

theorem groupContent_eq_iff {f g : Frame} :
    s.groupContent f = s.groupContent g ↔
      ∀ x ∈ s.group, (x.cell f).content = (x.cell g).content := by
  simp [groupContent, contents, List.map_map]

/-- Frames are sorted by what they are grouped by and by nothing else. -/
theorem mem_group_iff {x : Operand} : x ∈ s.group ↔ ∃ b, (b, x) ∈ s.groupingKeys := by
  unfold groupingKeys
  split
  · simp
  · split
    · next hlen =>
      constructor
      · intro hx
        have : x ∈ ((s.order.map (·.descending)).zip s.group).map (·.2) := by
          rwa [← List.unzip_snd, List.unzip_zip_right (by simp [hlen])]
        obtain ⟨⟨b, y⟩, hmem, rfl⟩ := List.mem_map.1 this
        exact ⟨b, hmem⟩
      · exact fun ⟨b, h⟩ => (List.of_mem_zip h).2
    · simp

theorem groupContent_eq_iff_keys {f g : Frame} :
    s.groupContent f = s.groupContent g ↔
      contents (s.groupingKeys.map (·.2.cell f)) = contents (s.groupingKeys.map (·.2.cell g)) := by
  simp only [groupContent_eq_iff, mem_group_iff, contents, List.map_map]
  rw [List.map_inj_left]
  constructor
  · exact fun h p hp => h p.2 ⟨p.1, hp⟩
  · intro h x hx
    obtain ⟨b, hb⟩ := hx
    exact h (b, x) hb

/-- Frames in the order in which they fall into groups. -/
def orderedFrames (s : Statement) (frames : List Frame) : List Frame :=
  sortByKeys (s.groupingKeys.map (·.1)) (fun f => s.groupingKeys.map (·.2.cell f)) frames

/-- Whether two frames fall into one group. -/
def sameGroup (s : Statement) (f g : Frame) : Bool :=
  sameCells (s.group.map (·.cell f)) (s.group.map (·.cell g))

theorem unorderedGroups_eq (hgroup : s.group ≠ []) :
    s.unorderedGroups frames = ((s.orderedFrames frames).splitBy s.sameGroup).map fun members =>
      ⟨shownFrame s.deciding? members, members⟩ := by
  have hgrouped : s.isGrouped = true := by simp [isGrouped, hgroup]
  have hempty : s.group.isEmpty = false := by simpa using hgroup
  simp only [unorderedGroups, hgrouped, hempty, Bool.not_true, Bool.false_eq_true, if_false]
  rfl

theorem orderedFrames_perm (s : Statement) (frames : List Frame) :
    (s.orderedFrames frames).Perm frames :=
  sortByKeys_perm ..

/-- Frames fall into one group when their group columns hold the same. -/
theorem sameGroup_iff (hproper : ∀ f ∈ frames, ∀ x ∈ s.group, (x.cell f).IsProper) {f g : Frame}
    (hf : f ∈ s.orderedFrames frames) (hg : g ∈ s.orderedFrames frames) :
    s.sameGroup f g = true ↔ s.groupContent f = s.groupContent g := by
  have hcells : ∀ f ∈ s.orderedFrames frames, AllProper (s.group.map (·.cell f)) := by
    intro f hf c hc
    obtain ⟨x, hx, rfl⟩ := List.mem_map.1 hc
    exact hproper f ((s.orderedFrames_perm frames).mem_iff.1 hf) x hx
  exact sameCells_iff (hcells f hf) (hcells g hg) (by simp)

/-- Between frames of one group there are none of another. -/
theorem groupContent_between (hproper : ∀ f ∈ frames, ∀ x ∈ s.group, (x.cell f).IsProper)
    {f g h : Frame} (hsub : [f, g, h].Sublist (s.orderedFrames frames))
    (hfh : s.groupContent f = s.groupContent h) : s.groupContent f = s.groupContent g := by
  set directions := s.groupingKeys.map (·.1)
  set key : Frame → List Cell := fun f => s.groupingKeys.map (·.2.cell f)
  have hkeys : ∀ f ∈ frames, AllProper (key f) := by
    intro f hf c hc
    obtain ⟨p, hp, rfl⟩ := List.mem_map.1 hc
    exact hproper f hf _ (mem_group_iff.2 ⟨p.1, hp⟩)
  have hlen : ∀ f, (key f).length = directions.length := fun f => by simp [key, directions]
  have hsorted := pairwise_sortByKeys directions hkeys fun f _ => hlen f
  have hmem : ∀ x ∈ [f, g, h], x ∈ frames := fun x hx =>
    (s.orderedFrames_perm frames).mem_iff.1 (hsub.subset hx)
  simp only [List.forall_mem_cons] at hmem
  obtain ⟨hf, hg, hh, -⟩ := hmem
  have hpairs := hsorted.sublist hsub
  simp only [List.pairwise_cons, List.mem_cons, forall_eq_or_imp] at hpairs
  obtain ⟨⟨hfg, -⟩, ⟨hgh, -⟩, -⟩ := hpairs
  have hhf : keysOrder (directions.zip ((key h).zip (key f))) = .eq :=
    (keysOrder_eq_iff (hkeys h hh) (hkeys f hf) (hlen h) (hlen f)).2
      (groupContent_eq_iff_keys.1 hfh.symm)
  have hgf := keysOrder_trans (hkeys g hg) (hkeys h hh) (hkeys f hf) (by simp [hlen])
    (by simp [hlen]) hgh (by simp [hhf])
  rw [keysOrder_swap] at hgf
  refine groupContent_eq_iff_keys.2
    ((keysOrder_eq_iff (hkeys f hf) (hkeys g hg) (hlen f) (hlen g)).1 ?_)
  cases ho : keysOrder (directions.zip ((key f).zip (key g))) <;> simp_all

/-- There is one group for every content of the group columns. -/
theorem length_unorderedGroups (hgroup : s.group ≠ [])
    (hproper : ∀ f ∈ frames, ∀ x ∈ s.group, (x.cell f).IsProper) :
    (s.unorderedGroups frames).length = (frames.map s.groupContent).toFinset.card := by
  have hparts := length_splitBy_eq_card (r := s.sameGroup) (g := s.groupContent)
    (fun f hf g hg => sameGroup_iff hproper hf hg) fun f g h => groupContent_between hproper
  rw [unorderedGroups_eq hgroup, List.length_map, hparts]
  exact congrArg _ (List.toFinset_eq_of_perm _ _ ((s.orderedFrames_perm frames).map _))

/-! ## Members -/

theorem decidedFrame_mem (largest : Bool) (x : Operand) (best : Option Cell) (shown : Frame)
    (frames : List Frame) :
    decidedFrame largest x best shown frames ∈ shown :: frames := by
  induction frames generalizing best shown with
  | nil => exact List.mem_cons_self ..
  | cons f rest ih =>
    have hrest : ∀ best shown', shown' ∈ shown :: f :: rest →
        decidedFrame largest x best shown' rest ∈ shown :: f :: rest := by
      intro best shown' hmem
      rcases List.mem_cons.1 (ih best shown') with heq | hin
      · rw [heq]
        exact hmem
      · exact List.mem_cons_of_mem _ (List.mem_cons_of_mem _ hin)
    unfold decidedFrame
    cases best with
    | none => exact hrest _ f (by simp)
    | some b =>
      dsimp only
      split
      · exact hrest _ f (by simp)
      · exact hrest _ shown (by simp)

/-- A group shows one of its members. -/
theorem shownFrame_mem (deciding? : Option (Bool × Operand)) {members : List Frame}
    (h : members ≠ []) : shownFrame deciding? members ∈ members := by
  obtain ⟨f, rest, rfl⟩ := List.exists_cons_of_ne_nil h
  cases deciding? with
  | none => exact List.mem_cons_self ..
  | some d =>
    show decidedFrame d.1 d.2 none f (f :: rest) ∈ f :: rest
    rcases List.mem_cons.1 (decidedFrame_mem d.1 d.2 none f (f :: rest)) with heq | hin
    · rw [heq]
      exact List.mem_cons_self ..
    · exact hin

/-- What a group shows is decided by its members. -/
theorem exists_shownFrame {g : FrameGroup} (hg : g ∈ s.unorderedGroups frames) :
    ∃ deciding?, g.shown = shownFrame deciding? g.members := by
  unfold unorderedGroups at hg
  dsimp only at hg
  split at hg
  · obtain ⟨f, -, rfl⟩ := List.mem_map.1 hg
    exact ⟨none, rfl⟩
  · split at hg
    · obtain rfl := List.mem_singleton.1 hg
      exact ⟨_, rfl⟩
    · obtain ⟨members, -, rfl⟩ := List.mem_map.1 hg
      exact ⟨_, rfl⟩

/-- A group shows one of its members, or nothing when it has none. -/
theorem shown_mem {g : FrameGroup} (hg : g ∈ s.unorderedGroups frames) :
    g.shown ∈ g.members ∨ g.members = [] ∧ g.shown = [] := by
  obtain ⟨deciding?, hshown⟩ := exists_shownFrame hg
  by_cases hmembers : g.members = []
  · exact .inr ⟨hmembers, by rw [hshown, hmembers]; rfl⟩
  · exact .inl (hshown ▸ shownFrame_mem deciding? hmembers)

/-- Every frame is a member of one group, once. -/
theorem members_perm (s : Statement) (frames : List Frame) :
    ((s.unorderedGroups frames).flatMap (·.members)).Perm frames := by
  unfold unorderedGroups
  dsimp only
  split
  · simp [List.flatMap_map]
  · split
    · simp
    · rw [List.flatMap_map, List.flatMap_id', List.flatten_splitBy]
      exact sortByKeys_perm ..

/-- The groups of a statement are those of its frames, in some order. -/
theorem exists_groups_perm (s : Statement) (db : Database) :
    ∃ frames, frames.Perm (s.frames db) ∧ (s.groups db).Perm (s.unorderedGroups frames) := by
  refine ⟨_, ?_, sortByKeys_perm _ _ _⟩
  split
  · exact List.reverse_perm _
  · exact .refl _

/-- Groups are classes: the frames of one have the same in their group columns, and those of
different ones do not. -/
theorem classes_unorderedGroups (hgroup : s.group ≠ [])
    (hproper : ∀ f ∈ frames, ∀ x ∈ s.group, (x.cell f).IsProper) :
    (∀ g ∈ s.unorderedGroups frames, g.members ≠ [] ∧
      ∀ a ∈ g.members, ∀ b ∈ g.members, s.groupContent a = s.groupContent b) ∧
    (s.unorderedGroups frames).Pairwise fun g g' =>
      ∀ a ∈ g.members, ∀ b ∈ g'.members, s.groupContent a ≠ s.groupContent b := by
  have hsame : ∀ f ∈ s.orderedFrames frames, ∀ g ∈ s.orderedFrames frames,
      s.sameGroup f g = true ↔ s.groupContent f = s.groupContent g :=
    fun f hf g hg => sameGroup_iff hproper hf hg
  obtain ⟨-, hdiffer⟩ := splitBy_eq_filter (r := s.sameGroup) (g := s.groupContent) hsame
    fun f g h => groupContent_between hproper
  rw [unorderedGroups_eq hgroup]
  refine ⟨fun g hg => ?_, List.pairwise_map.2 hdiffer⟩
  obtain ⟨members, hmembers, rfl⟩ := List.mem_map.1 hg
  exact ⟨List.ne_nil_of_mem_splitBy hmembers,
    fun a ha b hb => eq_of_mem_splitBy hsame hmembers ha hb⟩

end Statement

end ResourceQuery
