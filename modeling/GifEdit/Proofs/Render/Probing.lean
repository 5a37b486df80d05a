/-
  GifEdit.Proofs.Render.Probing
  ─────────────────────────────
  **CLIPS FROM THE PROBER.**

  A report may give two durations, that of the container and that of its first stream.  The
  container's is taken if it gives one at all:

      container        stream         clip
      usable           whatever       the container's duration
      no text          usable         the stream's duration
      no text          unusable       refused
      unusable text    whatever       refused

  In the last row the stream may well have a duration, and yet the clip is refused for
  having none: the text is chosen before it is read.

  A clip of a report has a finite, positive duration and sides of at least one pixel.  An
  edit asks for sides of two, so a clip with a side of one is found but cannot be edited.
-/
import GifEdit.Render.Probe
import GifEdit.Proofs.Edit.Specification
import GifEdit.Proofs.Scalar.Shares

namespace GifEdit

variable {α : Type} [Scalar α]

/-! ## §1. Durations. -/

/-- A text, if it is there, that stands for a finite, positive duration. -/
def Offers (text : Option String) (d : α) : Prop :=
  ∃ s, text = some s ∧ ∃ f, Decimal.readFigure s = some f ∧ f.toScalar = d
    ∧ Scalar.isFinite d = true ∧ 0 < d

/-- The reader of durations finds what a text offers. -/
theorem bind_usableDuration? {text : Option String} {d : α} :
    text.bind usableDuration? = some d ↔ Offers text d := by
  cases text with
  | none => exact iff_of_false (fun h => nomatch h) (fun ⟨_, h, _⟩ => nomatch h)
  | some s =>
      show usableDuration? s = some d ↔ Offers (some s) d
      unfold usableDuration?
      constructor
      · intro h
        split at h
        · exact nomatch h
        · rename_i f hread
          dsimp only at h
          split_ifs at h with husable
          obtain rfl := Option.some.inj h
          rw [Bool.and_eq_true, decide_eq_true_eq] at husable
          exact ⟨s, rfl, f, hread, rfl, husable⟩
      · intro h
        obtain ⟨t, ht, f, hread, rfl, hfinite, hpos⟩ := h
        obtain rfl := Option.some.inj ht
        rw [hread]
        dsimp only
        rw [hfinite, decide_eq_true hpos, Bool.true_and, if_pos rfl]

theorem bind_usableDuration?_eq_none {text : Option String} (h : ¬ ∃ d : α, Offers text d) :
    text.bind (usableDuration? : String → Option α) = none := by
  cases hbind : text.bind (usableDuration? : String → Option α) with
  | none => rfl
  | some d => exact absurd ⟨d, bind_usableDuration?.mp hbind⟩ h

/-! ## §2. Which duration a clip gets. -/

namespace ProbeReport

variable {r : ProbeReport} {stream : ProbedStream} {w h : Nat} {name : String}

/-- A report whose first stream has these sides, of at least one pixel. -/
structure Shows (r : ProbeReport) (stream : ProbedStream) (w h : Nat) : Prop where
  first : r.streams.head? = some stream
  width : stream.width = some w
  height : stream.height = some h
  width_pos : 0 < w
  height_pos : 0 < h

/-- With such a stream it is up to the durations. -/
theorem Shows.clip_eq (hshows : r.Shows stream w h) :
    (r.clip name : Except Failure (Clip α))
      = ((r.duration <|> stream.duration).bind usableDuration?).elim
        (.error (.render (name ++ " reports no duration"))) fun d => .ok ⟨name, d, w, h⟩ := by
  obtain ⟨hfirst, hwidth, hheight, hw, hh⟩ := hshows
  obtain ⟨rest, hstreams⟩ := List.head?_eq_some_iff.mp hfirst
  obtain ⟨i, rfl⟩ := Nat.exists_eq_add_one_of_ne_zero hw.ne'
  obtain ⟨j, rfl⟩ := Nat.exists_eq_add_one_of_ne_zero hh.ne'
  unfold clip
  simp only [hstreams, hwidth, hheight]
  cases (r.duration <|> stream.duration).bind (usableDuration? : String → Option α) with
  | none => rfl
  | some d => rfl

/-- A clip comes from such a stream and from a duration. -/
theorem clip_eq_ok {c : Clip α} (hclip : r.clip name = .ok c) :
    ∃ stream, r.Shows stream c.width c.height ∧ c.name = name
      ∧ Offers (r.duration <|> stream.duration) c.duration := by
  unfold clip at hclip
  cases hstreams : r.streams with
  | nil =>
      rw [hstreams] at hclip
      exact nomatch hclip
  | cons stream rest =>
      rw [hstreams] at hclip
      dsimp only at hclip
      split at hclip
      · rename_i i j hwidth hheight
        split at hclip
        · rename_i d hduration
          obtain rfl := Except.ok.inj hclip
          have hfirst : r.streams.head? = some stream := by
            rw [hstreams]
            rfl
          exact ⟨stream, ⟨hfirst, hwidth, hheight, Nat.succ_pos i, Nat.succ_pos j⟩, rfl,
            bind_usableDuration?.mp hduration⟩
        · exact nomatch hclip
      · exact nomatch hclip

end ProbeReport

/-- **Which duration a clip gets**: the container's, if it is usable; else the stream's, but
only if the container gives no text at all. -/
theorem readProbe_duration (name printed : String) {r : ProbeReport} {stream : ProbedStream}
    {w h : Nat} (hread : Json.decodeDocument ProbeReport.decode printed = .ok r)
    (hshows : r.Shows stream w h) :
    (∀ d : α, Offers r.duration d → readProbe name printed = .ok ⟨name, d, w, h⟩)
      ∧ ((¬ ∃ d : α, Offers r.duration d) →
        (∀ d : α, Offers stream.duration d → readProbe name printed
          = if r.duration = none then .ok ⟨name, d, w, h⟩
            else .error (.render (name ++ " reports no duration")))
        ∧ ((¬ ∃ d : α, Offers stream.duration d) → (readProbe name printed : Except _ (Clip α))
          = .error (.render (name ++ " reports no duration")))) := by
  have hclip : (readProbe name printed : Except Failure (Clip α)) = r.clip name := by
    unfold readProbe
    rw [hread]
  rw [hshows.clip_eq] at hclip
  -- The choice is made before either text is parsed, so all depends on which texts are there.
  cases hduration : r.duration with
  | none =>
      have hchosen : (r.duration <|> stream.duration) = stream.duration := by
        rw [hduration]
        rfl
      rw [hchosen] at hclip
      refine ⟨?_, fun _ => ⟨?_, ?_⟩⟩
      · intro d hd
        obtain ⟨s, hs, -⟩ := hd
        exact nomatch hs
      · intro d hd
        rw [hclip, bind_usableDuration?.mpr hd, if_pos rfl]
        rfl
      · intro hnone
        rw [hclip, bind_usableDuration?_eq_none hnone]
        rfl
  | some s =>
      have hchosen : (r.duration <|> stream.duration) = some s := by
        rw [hduration]
        rfl
      rw [hchosen] at hclip
      refine ⟨?_, fun hcontainer => ⟨?_, ?_⟩⟩
      · intro d hd
        rw [hclip, bind_usableDuration?.mpr hd]
        rfl
      · intro d _
        rw [hclip, bind_usableDuration?_eq_none hcontainer, if_neg (fun h => nomatch h)]
        rfl
      · intro _
        rw [hclip, bind_usableDuration?_eq_none hcontainer]
        rfl

/-- A stream whose duration is read, beside a container without one. -/
theorem readProbe_duration_stream :
    let printed :=
      "\x7b\"streams\": [\x7b\"width\": 640, \"height\": 480, \"duration\": \"3.5\"\x7d]\x7d"
    let stream : ProbedStream := ⟨some 640, some 480, some "3.5"⟩
    let r : ProbeReport := ⟨[stream], none⟩
    Json.decodeDocument ProbeReport.decode printed = .ok r ∧ r.Shows stream 640 480
      ∧ (readProbe "a.webm" printed : Except Failure (Clip Float))
        = .ok ⟨"a.webm", 3.5, 640, 480⟩ := by
  intro printed stream r
  have hread : Json.decodeDocument ProbeReport.decode printed = .ok r := by decide +kernel
  have hshows : r.Shows stream 640 480 := ⟨rfl, rfl, rfl, by decide, by decide⟩
  have hcontainer : ¬ ∃ d : Float, Offers r.duration d := by
    intro ⟨d, s, hs, _⟩
    exact nomatch hs
  have hstream : Offers stream.duration (3.5 : Float) :=
    bind_usableDuration?.mp (by decide +kernel)
  have hresult := (readProbe_duration "a.webm" printed hread hshows).2 hcontainer
  exact ⟨hread, hshows, hresult.1 3.5 hstream⟩

/-- A stream whose duration is not read, beside a container with a text that is no number. -/
theorem readProbe_overlooks_stream :
    let printed :=
      "\x7b\"streams\": [\x7b\"width\": 640, \"height\": 480, \"duration\": \"3.5\"\x7d], "
        ++ "\"format\": \x7b\"duration\": \"N/A\"\x7d\x7d"
    let stream : ProbedStream := ⟨some 640, some 480, some "3.5"⟩
    let r : ProbeReport := ⟨[stream], some "N/A"⟩
    Json.decodeDocument ProbeReport.decode printed = .ok r ∧ r.Shows stream 640 480
      ∧ (¬ ∃ d : Float, Offers r.duration d) ∧ Offers stream.duration (3.5 : Float)
      ∧ (readProbe "clip.mp4" printed : Except Failure (Clip Float))
        = .error (.render "clip.mp4 reports no duration") := by
  intro printed stream r
  have hread : Json.decodeDocument ProbeReport.decode printed = .ok r := by decide +kernel
  have hcontainer : ¬ ∃ d : Float, Offers r.duration d := by
    intro ⟨d, hd⟩
    have hbind : r.duration.bind (usableDuration? : String → Option Float) = none := by
      decide +kernel
    exact nomatch hbind.symm.trans (bind_usableDuration?.mpr hd)
  refine ⟨hread, ⟨rfl, rfl, rfl, by decide, by decide⟩, hcontainer, ?_, ?_⟩
  · exact bind_usableDuration?.mp (by decide +kernel)
  · decide +kernel

/-! ## §3. Which clips can be edited. -/

/-- What the prober makes sure of. -/
theorem readProbe_eq_ok {name printed : String} {c : Clip α} (h : readProbe name printed = .ok c) :
    c.name = name ∧ 0 < c.width ∧ 0 < c.height
      ∧ Scalar.isFinite c.duration = true ∧ 0 < c.duration := by
  unfold readProbe at h
  split at h
  · exact nomatch h
  · obtain ⟨stream, hshows, hname, s, -, f, -, -, hfinite, hpos⟩ := ProbeReport.clip_eq_ok h
    exact ⟨hname, hshows.width_pos, hshows.height_pos, hfinite, hpos⟩

/-- A clip of positive duration is refused only for its sides. -/
theorem Clip.check_eq [RoundedScalar α] {c : Clip α} (hfinite : Scalar.isFinite c.duration = true)
    (hpos : 0 < c.duration) :
    c.check = if c.width < 2 || c.height < 2 then .error (.invalidSource (.tooSmall c.frame))
      else .ok () := by
  have hnot : ¬ c.duration ≤ 0 := RoundedScalar.not_le_of_lt hpos
  unfold Clip.check
  rw [hfinite, decide_eq_false hnot, Bool.not_true, Bool.or_false, if_neg Bool.false_ne_true]

/-- The backdrop of a new edit passes its check. -/
theorem Background.check_standard [RoundedScalar α] :
    (standard : Background α).check = .ok () := by
  have hlow : (0 : α) ≤ 0.1 := RoundedScalar.zero_le_ofScientific (by decide) (by decide) true
  have hhigh : (0.1 : α) ≤ 0.5 := RoundedScalar.tenths_le (by decide) (by decide)
  have hpadding : isPadding (standard : Background α).padding = true := by
    show (decide ((0 : α) ≤ 0.1) && decide ((0.1 : α) ≤ 0.5)) = true
    rw [decide_eq_true hlow, decide_eq_true hhigh, Bool.true_and]
  unfold check
  rw [if_pos hpadding]

section Whole

variable [LawfulScalar α] [OrderedScalar α] [RoundedScalar α]

/-- All of a clip is a valid trim of it. -/
theorem TrimRange.isValid_full {d : α} (hfinite : Scalar.isFinite d = true) (hpos : 0 < d) :
    isValid 0 d d = true := by
  have hzero : (0 : α) ≤ 0 := RoundedScalar.zero_le_ofNat 0
  have hzeroFinite : Scalar.isFinite (0 : α) = true :=
    LawfulScalar.isFinite_ofScientific (by decide) (by decide) false
  have hslack : (0 : α) ≤ timeSlack :=
    RoundedScalar.zero_le_ofScientific (by decide) (by decide) true
  have hslackFinite : Scalar.isFinite (timeSlack : α) = true :=
    LawfulScalar.isFinite_ofScientific (by decide) (by decide) true
  have hstop : d ≤ d + timeSlack :=
    RoundedScalar.le_add (OrderedScalar.le_of_lt hpos) hfinite hslack hslackFinite
  unfold isValid
  simp only [hzeroFinite, hfinite, hzero, hpos, hstop, decide_true, Bool.and_self]

/-- The untouched edit of a clip passes the checks if the clip does. -/
theorem Specification.ofClip_eq {c : Clip α} (settings : ExportSettings)
    (hfinite : Scalar.isFinite c.duration = true) (hpos : 0 < c.duration) :
    ofClip c settings .standard
      = c.check.map fun _ => ⟨c, ⟨0, c.duration⟩, none, .none, settings, .standard⟩ := by
  have hvalid := TrimRange.isValid_full hfinite hpos
  have htrim : TrimRange.full c.duration = .ok ⟨0, c.duration⟩ :=
    TrimRange.ofBounds_eq_ok.mpr ⟨hvalid, rfl⟩
  unfold ofClip
  rw [htrim, ok_bind]
  cases hcheck : c.check with
  | ok _ =>
      exact ofParts_of_accepted
        (s := ⟨c, ⟨0, c.duration⟩, none, .none, settings, .standard⟩)
        ⟨hcheck, hvalid, rfl, rfl, Background.check_standard⟩
  | error e =>
      unfold ofParts
      rw [hcheck]
      rfl

/-- **Which clips of the prober can be edited**: those with sides of at least two pixels, and
then the untouched edit of the whole clip is accepted with every setting.  All others have a
side of one pixel and are refused for it. -/
theorem probed_clip_editable_or_thin (name printed : String) (c : Clip α)
    (h : readProbe name printed = .ok c) :
    (2 ≤ c.width ∧ 2 ≤ c.height ∧ c.check = .ok ()
        ∧ ∀ settings, Specification.ofClip c settings .standard
          = .ok ⟨c, ⟨0, c.duration⟩, none, .none, settings, .standard⟩)
      ∨ ((c.width = 1 ∨ c.height = 1) ∧ c.check = .error (.invalidSource (.tooSmall c.frame))
        ∧ ∀ settings, Specification.ofClip c settings .standard
          = .error (.invalidSource (.tooSmall c.frame))) := by
  obtain ⟨-, hwidth, hheight, hfinite, hpos⟩ := readProbe_eq_ok h
  have hcheck := Clip.check_eq hfinite hpos
  -- Of what a clip has to be, only the least side is not seen to by the prober.
  by_cases hsides : 2 ≤ c.width ∧ 2 ≤ c.height
  · have hfits : (decide (c.width < 2) || decide (c.height < 2)) = false := by
      simp only [Bool.or_eq_false_iff, decide_eq_false_iff_not]
      omega
    rw [hfits, if_neg Bool.false_ne_true] at hcheck
    refine .inl ⟨hsides.1, hsides.2, hcheck, ?_⟩
    intro settings
    rw [Specification.ofClip_eq settings hfinite hpos, hcheck]
    rfl
  · have hsmall : (decide (c.width < 2) || decide (c.height < 2)) = true := by
      simp only [Bool.or_eq_true, decide_eq_true_eq]
      omega
    rw [hsmall, if_pos rfl] at hcheck
    refine .inr ⟨by omega, hcheck, ?_⟩
    intro settings
    rw [Specification.ofClip_eq settings hfinite hpos, hcheck]
    rfl

end Whole

/-- A clip that can be edited. -/
theorem probed_clip_editable_or_thin_vga :
    let printed :=
      "\x7b\"streams\": [\x7b\"width\": 640, \"height\": 480, \"duration\": \"3.5\"\x7d]\x7d"
    let c : Clip Float := ⟨"clip.mp4", 3.5, 640, 480⟩
    readProbe "clip.mp4" printed = .ok c
      ∧ c.check = .ok ()
      ∧ ∀ settings, Specification.ofClip c settings .standard
        = .ok ⟨c, ⟨0, 3.5⟩, none, .none, settings, .standard⟩ := by
  intro printed c
  have hread : readProbe "clip.mp4" printed = .ok c := by decide +kernel
  rcases probed_clip_editable_or_thin "clip.mp4" printed c hread with
    ⟨-, -, hcheck, hedit⟩ | ⟨hthin, -⟩
  · exact ⟨hread, hcheck, hedit⟩
  · exact absurd hthin (by decide)

/-- A clip that is found but cannot be edited. -/
theorem probed_clip_may_be_thin :
    let printed :=
      "\x7b\"streams\": [\x7b\"width\": 1, \"height\": 480, \"duration\": \"3.5\"\x7d]\x7d"
    let c : Clip Float := ⟨"clip.mp4", 3.5, 1, 480⟩
    readProbe "clip.mp4" printed = .ok c
      ∧ c.check = .error (.invalidSource (.tooSmall ⟨1, 480⟩))
      ∧ Specification.ofClip c .standard .standard
        = .error (.invalidSource (.tooSmall ⟨1, 480⟩)) := by
  decide +kernel

end GifEdit
