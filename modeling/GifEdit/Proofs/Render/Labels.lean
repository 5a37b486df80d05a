/-
  GifEdit.Proofs.Render.Labels
  ────────────────────────────
  **NO TWO STREAMS HAVE THE SAME LABEL.**

  Labels are words, and most of them carry the number of a segment:

      in⟨i⟩     s⟨i⟩     s⟨i⟩_⟨part⟩        and a few fixed words

  The first letter tells the families from each other and from the fixed words, and
  the mark behind the digits of a number tells where the number ends.  Names of
  stages are built and told apart in the same way.
-/
import GifEdit.Render.Dataflow
import Mathlib.Data.List.Nodup

namespace GifEdit

/-! ## §1. Numbers in words. -/

/-- Different numbers have different digits. -/
theorem toDigits_inj {i j : Nat} : Nat.toDigits 10 i = Nat.toDigits 10 j ↔ i = j := by
  constructor
  · intro h
    have hvalue := congrArg (fun digits => Nat.ofDigitChars 10 digits 0) h
    simpa using hvalue
  · rintro rfl
    rfl

/-- A number that is followed by a mark can be read back. -/
theorem toDigits_append_inj {mark : Char} (hmark : mark.isDigit = false) {i j : Nat}
    {p q : List Char}
    (h : Nat.toDigits 10 i ++ mark :: p = Nat.toDigits 10 j ++ mark :: q) : i = j ∧ p = q := by
  have hread : ∀ (n : Nat) (r : List Char),
      (Nat.toDigits 10 n ++ mark :: r).takeWhile Char.isDigit = Nat.toDigits 10 n := by
    intro n r
    have hdigits : ∀ c ∈ Nat.toDigits 10 n, c.isDigit = true := fun c hc =>
      Nat.isDigit_of_mem_toDigits (by decide) (by decide) hc
    rw [List.takeWhile_append_of_pos hdigits, List.takeWhile_cons_of_neg (by simp [hmark]),
      List.append_nil]
  -- The digits are what is read before the mark, and the rest is what is left.
  have hij : Nat.toDigits 10 i = Nat.toDigits 10 j := by
    rw [← hread i p, h, hread j q]
  rw [hij] at h
  have hpq := List.append_cancel_left h
  exact ⟨toDigits_inj.mp hij, (List.cons.inj hpq).2⟩

namespace Label

/-! ## §2. Families of labels. -/

/-- How the label of a branch is spelled. -/
theorem branch_chars (i : Nat) :
    (branch i).name.toList = 'i' :: 'n' :: Nat.toDigits 10 i := by
  simp [branch]

theorem segment_chars (i : Nat) : (segment i).name.toList = 's' :: Nat.toDigits 10 i := by
  simp [segment]

/-- How a stream inside of a segment is spelled: like the segment, with its part behind it. -/
theorem segmentPart_chars (i : Nat) (part : String) :
    (segmentPart i part).name.toList = 's' :: (Nat.toDigits 10 i ++ '_' :: part.toList) := by
  simp [segmentPart]

/-- The first letter of a label. -/
def initial (l : Label) : Option Char := l.name.toList.head?

@[simp] theorem initial_branch (i : Nat) : (branch i).initial = some 'i' := by
  rw [initial, branch_chars, List.head?_cons]

@[simp] theorem initial_segment (i : Nat) : (segment i).initial = some 's' := by
  rw [initial, segment_chars, List.head?_cons]

@[simp] theorem initial_segmentPart (i : Nat) (part : String) :
    (segmentPart i part).initial = some 's' := by
  rw [initial, segmentPart_chars, List.head?_cons]

/-- No two branches are called the same. -/
theorem branch_inj {i j : Nat} : branch i = branch j ↔ i = j := by
  constructor
  · intro h
    have hname := congrArg (fun l => l.name.toList) h
    simp only [branch_chars, List.cons.injEq, true_and] at hname
    exact toDigits_inj.mp hname
  · rintro rfl
    rfl

theorem segment_inj {i j : Nat} : segment i = segment j ↔ i = j := by
  constructor
  · intro h
    have hname := congrArg (fun l => l.name.toList) h
    simp only [segment_chars, List.cons.injEq, true_and] at hname
    exact toDigits_inj.mp hname
  · rintro rfl
    rfl

/-- A stream inside of a segment tells the segment and its part of it. -/
theorem segmentPart_inj {i j : Nat} {p q : String} :
    segmentPart i p = segmentPart j q ↔ i = j ∧ p = q := by
  constructor
  · intro h
    have hname := congrArg (fun l => l.name.toList) h
    simp only [segmentPart_chars, List.cons.injEq, true_and] at hname
    obtain ⟨hij, hpq⟩ := toDigits_append_inj (by decide) hname
    exact ⟨hij, String.toList_inj.mp hpq⟩
  · rintro ⟨rfl, rfl⟩
    rfl

/-- What a segment puts out is not called like a stream inside of one. -/
theorem segment_ne_segmentPart (i j : Nat) (part : String) : segment i ≠ segmentPart j part := by
  intro h
  have hname := congrArg (fun l => l.name.toList) h
  simp only [segment_chars, segmentPart_chars, List.cons.injEq, true_and] at hname
  -- The mark would have to be a digit.
  have hmem : '_' ∈ Nat.toDigits 10 i := by
    rw [hname]
    exact List.mem_append_right _ List.mem_cons_self
  have hdigit := Nat.isDigit_of_mem_toDigits (by decide) (by decide) hmem
  exact nomatch hdigit

/-- The labels that the stages of a segment write. -/
def ofSegment (i : Nat) : List Label :=
  [segmentPart i "trim", segmentPart i "pts", segmentPart i "fps", segmentPart i "crop", segment i]

/-- All labels of a segment begin with one letter, whatever its number. -/
theorem initial_of_mem_ofSegment {i : Nat} {l : Label} (h : l ∈ ofSegment i) :
    l.initial = some 's' := by
  simp only [ofSegment, List.mem_cons, List.not_mem_nil, or_false] at h
  rcases h with rfl | rfl | rfl | rfl | rfl <;> simp

/-- The labels of one segment are different. -/
theorem ofSegment_nodup (i : Nat) : (ofSegment i).Nodup := by
  simp [ofSegment, segmentPart_inj, Ne.symm (segment_ne_segmentPart _ _ _)]

/-- Two segments have no label in common. -/
theorem ofSegment_disjoint {i j : Nat} (h : i ≠ j) : (ofSegment i).Disjoint (ofSegment j) := by
  simp [ofSegment, segmentPart_inj, segment_inj, segment_ne_segmentPart,
    Ne.symm (segment_ne_segmentPart _ _ _), Ne.symm h]

/-- The fixed labels, those of the files among them. -/
def fixed : List Label :=
  [sourceVideo, maskImage, joined, maskScaled, maskAlpha, rounded, framed, paletteSource,
    paletteFrames, palette, output]

theorem fixed_nodup : fixed.Nodup := by decide

/-- No label without a number begins like a numbered one, so the families stay apart. -/
theorem initial_of_mem_fixed {l : Label} (h : l ∈ fixed) :
    l.initial ≠ some 'i' ∧ l.initial ≠ some 's' := by
  revert l
  decide

end Label

/-! ## §3. Distinct words of numbered parts. -/

/-- Words that parts with different numbers share with none of the others. -/
theorem nodup_flatMap_zipIdx {γ δ : Type} {f : γ × Nat → List δ} {words : Nat → List δ}
    (hsublist : ∀ x, (f x).Sublist (words x.2)) (hnodup : ∀ i, (words i).Nodup)
    (hdisjoint : ∀ i j, i ≠ j → (words i).Disjoint (words j)) (xs : List γ) :
    (xs.zipIdx.flatMap f).Nodup := by
  rw [List.nodup_flatMap]
  refine ⟨fun x _ => (hnodup x.2).sublist (hsublist x), ?_⟩
  have hnumbers : (xs.zipIdx.map Prod.snd).Nodup := by
    rw [List.zipIdx_map_snd]
    exact List.nodup_range'
  refine (List.pairwise_map.mp hnumbers).imp ?_
  intro x y hxy a hx hy
  exact hdisjoint x.2 y.2 hxy ((hsublist x).subset hx) ((hsublist y).subset hy)

/-! ## §4. Labels of a plan. -/

variable {α : Type}

/-- The stages of a segment put out labels of this segment, each at most once. -/
theorem segmentStages_outputs (crop : Option Region) (fps : Nat) (video : Frame) (i : Nat)
    (source : Label) (s : Segment α) :
    ((segmentStages crop fps video i source s).flatMap Stage.outputs).Sublist
      (Label.ofSegment i) := by
  unfold segmentStages
  cases s.kind with
  | full => exact .cons_cons _ (.cons_cons _ (.cons_cons _ (.cons _ (.refl _))))
  | cropped =>
      cases crop with
      | none => exact .cons_cons _ (.cons_cons _ (.cons_cons _ (.cons _ (.refl _))))
      | some r => exact .refl _

/-- Copying the source puts out the branches, each at most once. -/
theorem fanOut_outputs (n : Nat) :
    ((fanOut n : List (Stage α)).flatMap Stage.outputs).Sublist
      ((List.range n).map Label.branch) := by
  unfold fanOut
  by_cases hn : 1 < n
  · rw [if_pos hn, List.flatMap_singleton]
  · rw [if_neg hn]
    exact List.nil_sublist _

theorem ofFile_zero : Label.ofFile 0 = .sourceVideo := by decide

theorem ofFile_one : Label.ofFile 1 = .maskImage := by decide

/-- The labels of the files that a pipeline reads, in their order. -/
def Pipeline.fileLabels (p : Pipeline α) : List Label :=
  (List.range p.inputs.length).map Label.ofFile

namespace Specification

variable [Scalar α] (s : Specification α)

/-- The labels of the files that are read: the source, and the mask behind a backdrop. -/
theorem fileLabels_eq : s.pipeline.fileLabels =
    .sourceVideo :: if s.background.enabled then [.maskImage] else [] := by
  unfold Pipeline.fileLabels pipeline inputs
  cases s.background.enabled with
  | false => exact congrArg (fun l => [l]) ofFile_zero
  | true => exact congrArg₂ (fun l m => [l, m]) ofFile_zero ofFile_one

/-- The stages of the segments. -/
def cutStages (segments : List (Segment α)) : List (Stage α) :=
  segments.zipIdx.flatMap fun (segment, i) =>
    segmentStages s.crop s.exportSettings.fps s.layout.video i
      (segmentSource segments.length i) segment

/-- The stages behind the video. -/
def frameStages (video : Label) : List (Stage α) :=
  if s.background.enabled then backdrop s.layout s.background.color video else []

/-- The stream of the picture. -/
def frameLabel (video : Label) : Label := if s.background.enabled then .framed else video

/-- The stages behind those of the segments. -/
def lastStages (n : Nat) : List (Stage α) :=
  join n ++ s.frameStages (joinedLabel n) ++
    paletteStages s.exportSettings.colors s.exportSettings.dither (s.frameLabel (joinedLabel n))

/-- A plan in three parts: the copies of the source, the cuts, and what is made of all of them. -/
theorem stages_eq (segments : List (Segment α)) : s.stages segments =
    fanOut segments.length ++ s.cutStages segments ++ s.lastStages segments.length := by
  unfold stages cutStages lastStages frameStages frameLabel
  simp only [List.append_assoc]

/-- Labels without a number are written once. -/
theorem lastStages_outputs (n : Nat) :
    (s.pipeline.fileLabels ++ (s.lastStages n).flatMap Stage.outputs).Sublist Label.fixed := by
  rw [fileLabels_eq]
  unfold lastStages join frameStages frameLabel
  cases s.background.enabled with
  | false =>
      by_cases hn : 1 < n
      · rw [if_pos hn]
        exact .cons_cons _ (.cons _ (.cons_cons _
          (.cons _ (.cons _ (.cons _ (.cons _ (.refl _)))))))
      · rw [if_neg hn]
        exact .cons_cons _ (.cons _ (.cons _
          (.cons _ (.cons _ (.cons _ (.cons _ (.refl _)))))))
  | true =>
      by_cases hn : 1 < n
      · rw [if_pos hn]
        exact .refl _
      · rw [if_neg hn]
        exact .cons_cons _ (.cons_cons _ (.cons _ (.refl _)))

/-- What the cuts put out is put out once, and begins like a segment. -/
theorem cutStages_outputs (segments : List (Segment α)) :
    ((s.cutStages segments).flatMap Stage.outputs).Nodup
      ∧ ∀ l ∈ (s.cutStages segments).flatMap Stage.outputs, l.initial = some 's' := by
  unfold cutStages
  rw [List.flatMap_assoc]
  constructor
  · exact nodup_flatMap_zipIdx (fun _ => segmentStages_outputs _ _ _ _ _ _) Label.ofSegment_nodup
      (fun _ _ hij => Label.ofSegment_disjoint hij) segments
  · intro l hl
    obtain ⟨x, -, hx⟩ := List.mem_flatMap.mp hl
    exact Label.initial_of_mem_ofSegment ((segmentStages_outputs _ _ _ _ _ _).subset hx)

/-- Labels with a number are written once, and none of the others is like them. -/
theorem numberedStages_outputs (segments : List (Segment α)) :
    ((fanOut segments.length ++ s.cutStages segments).flatMap Stage.outputs).Nodup
      ∧ ∀ l ∈ (fanOut segments.length ++ s.cutStages segments).flatMap Stage.outputs,
          l.initial = some 'i' ∨ l.initial = some 's' := by
  obtain ⟨hnodup, hcut⟩ := s.cutStages_outputs segments
  have hbranches := @fanOut_outputs α segments.length
  have hfan : ∀ l ∈ (fanOut segments.length : List (Stage α)).flatMap Stage.outputs,
      l.initial = some 'i' := by
    intro l hl
    obtain ⟨i, -, rfl⟩ := List.mem_map.mp (hbranches.subset hl)
    exact Label.initial_branch i
  rw [List.flatMap_append]
  constructor
  · rw [List.nodup_append']
    refine ⟨List.Nodup.sublist hbranches ?_, hnodup, ?_⟩
    · exact List.nodup_range.map fun i j hij => Label.branch_inj.mp hij
    · intro l hl hl'
      -- Branches and segments begin with different letters.
      have hletters := (hfan l hl).symm.trans (hcut l hl')
      exact absurd hletters (by decide)
  · intro l hl
    rcases List.mem_append.mp hl with hl | hl
    · exact .inl (hfan l hl)
    · exact .inr (hcut l hl)

/-- **No label is written twice**, nor one that belongs to a file. -/
theorem produced_nodup (segments : List (Segment α)) :
    (s.pipeline.fileLabels ++ (s.stages segments).flatMap Stage.outputs).Nodup := by
  obtain ⟨hcut, hinitial⟩ := s.numberedStages_outputs segments
  have hlast := s.lastStages_outputs segments.length
  rw [stages_eq, List.flatMap_append]
  -- Numbered labels to the front: the files belong with the labels without a number.
  have hperm := List.perm_append_comm_assoc s.pipeline.fileLabels
    ((fanOut segments.length ++ s.cutStages segments).flatMap Stage.outputs)
    ((s.lastStages segments.length).flatMap Stage.outputs)
  rw [hperm.nodup_iff, List.nodup_append']
  refine ⟨hcut, Label.fixed_nodup.sublist hlast, ?_⟩
  intro l hl hfixed
  obtain ⟨hbranch, hsegment⟩ := Label.initial_of_mem_fixed (hlast.subset hfixed)
  exact (hinitial l hl).elim hbranch hsegment

/-! ## §5. Names of stages. -/

end Specification

/-- The name of a stage of a segment. -/
def segmentName (i : Nat) (step : String) : String := "segment " ++ toString i ++ " " ++ step

/-- How the name of a stage of a segment is spelled. -/
theorem segmentName_chars (i : Nat) (step : String) : (segmentName i step).toList
    = "segment ".toList ++ (Nat.toDigits 10 i ++ ' ' :: step.toList) := by
  simp [segmentName]

theorem segmentName_inj {i j : Nat} {p q : String} :
    segmentName i p = segmentName j q ↔ i = j ∧ p = q := by
  constructor
  · intro h
    have hname := congrArg String.toList h
    simp only [segmentName_chars] at hname
    obtain ⟨hij, hpq⟩ := toDigits_append_inj (by decide) (List.append_cancel_left hname)
    exact ⟨hij, String.toList_inj.mp hpq⟩
  · rintro ⟨rfl, rfl⟩
    rfl

/-- The names of the stages of a segment. -/
def segmentNames (i : Nat) : List String :=
  ["trim", "reset timestamps", "resample", "crop", "scale"].map (segmentName i)

theorem segmentNames_nodup (i : Nat) : (segmentNames i).Nodup :=
  List.Nodup.map (fun _ _ h => (segmentName_inj.mp h).2) (by decide)

theorem segmentNames_disjoint {i j : Nat} (h : i ≠ j) :
    (segmentNames i).Disjoint (segmentNames j) := by
  intro name hi hj
  obtain ⟨p, -, rfl⟩ := List.mem_map.mp hi
  obtain ⟨q, -, hq⟩ := List.mem_map.mp hj
  exact h (segmentName_inj.mp hq).1.symm

/-- The stages of a segment are named like steps of it, in their order. -/
theorem segmentStages_names (crop : Option Region) (fps : Nat) (video : Frame) (i : Nat)
    (source : Label) (s : Segment α) :
    ((segmentStages crop fps video i source s).map Stage.name).Sublist (segmentNames i) := by
  unfold segmentStages
  cases s.kind with
  | full => exact .cons_cons _ (.cons_cons _ (.cons_cons _ (.cons _ (.refl _))))
  | cropped =>
      cases crop with
      | none => exact .cons_cons _ (.cons_cons _ (.cons_cons _ (.cons _ (.refl _))))
      | some r => exact .refl _

/-- The names without a number. -/
def fixedNames : List String :=
  ["source split", "concat", "mask scale", "mask alpha extract", "mask merge", "background pad",
    "palette split", "palette generate", "palette apply"]

/-- No stage of a segment is called like one outside of the segments. -/
theorem segmentName_notMem_fixedNames (i : Nat) (step : String) :
    segmentName i step ∉ fixedNames := by
  intro h
  have hletters : ∀ name ∈ fixedNames, name.toList.take 2 ≠ ['s', 'e'] := by decide
  refine hletters _ h ?_
  rw [segmentName_chars]
  rfl

namespace Specification

variable [Scalar α] (s : Specification α)

/-- The stages outside of the segments have some of the fixed names, in order. -/
theorem fixedStages_names (n : Nat) :
    (((fanOut n : List (Stage α)) ++ s.lastStages n).map Stage.name).Sublist fixedNames := by
  unfold fanOut lastStages join frameStages
  cases s.background.enabled with
  | false =>
      by_cases hn : 1 < n
      · rw [if_pos hn, if_pos hn]
        exact .cons_cons _ (.cons_cons _ (.cons _ (.cons _ (.cons _ (.cons _ (.refl _))))))
      · rw [if_neg hn, if_neg hn]
        exact .cons _ (.cons _ (.cons _ (.cons _ (.cons _ (.cons _ (.refl _))))))
  | true =>
      by_cases hn : 1 < n
      · rw [if_pos hn, if_pos hn]
        exact .refl _
      · rw [if_neg hn, if_neg hn]
        exact .cons _ (.cons _ (.refl _))

/-- **No two stages have the same name.** -/
theorem names_nodup (segments : List (Segment α)) :
    ((s.stages segments).map Stage.name).Nodup := by
  have hfixed := s.fixedStages_names segments.length
  have hcut : ((s.cutStages segments).map Stage.name).Nodup := by
    unfold cutStages
    rw [List.map_flatMap]
    exact nodup_flatMap_zipIdx (fun _ => segmentStages_names _ _ _ _ _ _) segmentNames_nodup
      (fun _ _ hij => segmentNames_disjoint hij) segments
  rw [List.map_append] at hfixed
  rw [stages_eq, List.append_assoc, List.map_append, List.map_append]
  rw [(List.perm_append_comm_assoc _ _ _).nodup_iff, List.nodup_append']
  refine ⟨hcut, List.Nodup.sublist hfixed (by decide), ?_⟩
  intro name hname hmem
  unfold cutStages at hname
  rw [List.map_flatMap] at hname
  obtain ⟨x, -, hx⟩ := List.mem_flatMap.mp hname
  obtain ⟨step, -, rfl⟩ := List.mem_map.mp ((segmentStages_names _ _ _ _ _ _).subset hx)
  exact segmentName_notMem_fixedNames _ _ (hfixed.subset hmem)

end Specification
end GifEdit
