import Mathlib.Data.List.Flatten

set_option autoImplicit false

/-! # Frames in a stream

A framing is a set of non-empty words none of which begins another one. A stream then has at most one
reading as a sequence of frames followed by a rest in which no frame is complete (`Splits.unique`).
A longer stream is read on from where its beginning has been read (`Splits.resume`), and what has arrived
of a stream of frames reads as the first of these frames (`Splits.of_append`). -/

namespace Bango.Lib

/-- A set of frames. -/
structure Framing (α : Type) where
  IsFrame : List α → Prop
  ne_nil : ∀ {f}, IsFrame f → f ≠ []
  eq_of_isPrefix : ∀ {f g}, IsFrame f → IsFrame g → f <+: g → f = g

namespace Framing

variable {α : Type} (F : Framing α)

/-- No frame is complete in `rest`. -/
def Incomplete (rest : List α) : Prop := ∀ f, F.IsFrame f → ¬ f <+: rest

/-- The reading of a stream as frames and an incomplete rest. -/
structure Splits (stream : List α) (frames : List (List α)) (rest : List α) : Prop where
  stream_eq : stream = frames.flatten ++ rest
  isFrame : ∀ f ∈ frames, F.IsFrame f
  incomplete : F.Incomplete rest

variable {F}

theorem Incomplete.of_isPrefix {r s : List α} (h : F.Incomplete s) (hrs : r <+: s) :
    F.Incomplete r := by
  intro f hf hfr
  exact h f hf (hfr.trans hrs)

/-- A stream that begins with a frame: no other frame begins it, and it is not incomplete. -/
theorem eq_of_append_eq {f g s t : List α} (hf : F.IsFrame f) (hg : F.IsFrame g)
    (h : f ++ s = g ++ t) : f = g ∧ s = t := by
  have hfg : f = g := by
    rcases List.prefix_or_prefix_of_prefix ⟨s, rfl⟩ ⟨t, h.symm⟩ with hpre | hpre
    · exact F.eq_of_isPrefix hf hg hpre
    · exact (F.eq_of_isPrefix hg hf hpre).symm
  subst hfg
  exact ⟨rfl, List.append_cancel_left h⟩

theorem Splits.unique {stream : List α} {frames frames' : List (List α)} {rest rest' : List α}
    (h : F.Splits stream frames rest) (h' : F.Splits stream frames' rest') :
    frames = frames' ∧ rest = rest' := by
  obtain ⟨heq, hframes, hrest⟩ := h
  obtain ⟨heq', hframes', hrest'⟩ := h'
  rw [heq] at heq'
  clear heq
  induction frames generalizing frames' with
  | nil =>
      cases frames' with
      | nil => exact ⟨rfl, heq'⟩
      | cons g gs =>
          simp only [List.flatten_nil, List.nil_append, List.flatten_cons, List.append_assoc] at heq'
          exact absurd ⟨_, heq'.symm⟩ (hrest g (hframes' g List.mem_cons_self))
  | cons f fs ih =>
      cases frames' with
      | nil =>
          simp only [List.flatten_nil, List.nil_append, List.flatten_cons, List.append_assoc] at heq'
          exact absurd ⟨_, heq'⟩ (hrest' f (hframes f List.mem_cons_self))
      | cons g gs =>
          simp only [List.flatten_cons, List.append_assoc] at heq'
          obtain ⟨hfg, htail⟩ := eq_of_append_eq (hframes f List.mem_cons_self)
            (hframes' g List.mem_cons_self) heq'
          obtain ⟨hfs, hrests⟩ := ih (fun x hx => hframes x (List.mem_cons_of_mem f hx)) htail
            fun x hx => hframes' x (List.mem_cons_of_mem g hx)
          exact ⟨by rw [hfg, hfs], hrests⟩

theorem incomplete_nil : F.Incomplete [] := by
  intro f hf hpre
  exact F.ne_nil hf (List.prefix_nil.1 hpre)

theorem splits_flatten {frames : List (List α)} (h : ∀ f ∈ frames, F.IsFrame f) :
    F.Splits frames.flatten frames [] :=
  ⟨by rw [List.append_nil], h, incomplete_nil⟩

/-- Frames are not empty, so there are no more of them than elements in the stream. -/
theorem length_le_length_flatten {frames : List (List α)} (h : ∀ f ∈ frames, F.IsFrame f) :
    frames.length ≤ frames.flatten.length := by
  induction frames with
  | nil => simp
  | cons f fs ih =>
      have hpos : 0 < f.length := List.length_pos_iff.2 (F.ne_nil (h f List.mem_cons_self))
      have := ih fun x hx => h x (List.mem_cons_of_mem f hx)
      rw [List.length_cons, List.flatten_cons, List.length_append]
      omega

/-- Reading a longer stream goes on where the reading of its beginning stopped. -/
theorem Splits.resume {s t rest rest' : List α} {frames frames' : List (List α)}
    (h : F.Splits s frames rest) (h' : F.Splits (s ++ t) frames' rest') :
    ∃ more, frames' = frames ++ more ∧ F.Splits (rest ++ t) more rest' := by
  obtain ⟨heq, hframes, hrest⟩ := h
  obtain ⟨heq', hframes', hrest'⟩ := h'
  rw [heq] at heq'
  clear heq
  induction frames generalizing frames' with
  | nil => exact ⟨frames', rfl, by simpa using heq', hframes', hrest'⟩
  | cons f fs ih =>
      simp only [List.flatten_cons, List.append_assoc] at heq'
      cases frames' with
      | nil => exact absurd ⟨_, heq'⟩ (hrest' f (hframes f List.mem_cons_self))
      | cons g gs =>
          simp only [List.flatten_cons, List.append_assoc] at heq'
          obtain ⟨hfg, htail⟩ := eq_of_append_eq (hframes f List.mem_cons_self)
            (hframes' g List.mem_cons_self) heq'
          obtain ⟨more, hmore, hsplit⟩ := ih (fun x hx => hframes x (List.mem_cons_of_mem f hx))
            (by rw [List.append_assoc, htail]) fun x hx => hframes' x (List.mem_cons_of_mem g hx)
          exact ⟨more, by rw [hfg, hmore, List.cons_append], hsplit⟩

/-- What is left over of a stream of frames is the beginning of the next one. -/
theorem Splits.rest_of_flatten {s t rest : List α} {frames all : List (List α)}
    (hall : ∀ f ∈ all, F.IsFrame f) (h : F.Splits s frames rest) (hst : s ++ t = all.flatten) :
    rest = [] ∨ ∃ f ∈ all, rest <+: f ∧ rest.length < f.length := by
  obtain ⟨more, hmore, hsplit⟩ := h.resume (hst ▸ splits_flatten hall)
  cases more with
  | nil =>
      have := hsplit.stream_eq
      exact .inl (List.append_eq_nil_iff.1 this).1
  | cons f fs =>
      have hmem : f ∈ all := hmore ▸ List.mem_append_right frames List.mem_cons_self
      have heq := hsplit.stream_eq
      rw [List.flatten_cons, List.append_nil] at heq
      rcases List.prefix_or_prefix_of_prefix ⟨t, rfl⟩ ⟨_, heq.symm⟩ with hpre | hpre
      · refine .inr ⟨f, hmem, hpre, ?_⟩
        -- a rest as long as the frame would be the frame, and the stream would have split there
        rcases Nat.lt_or_ge rest.length f.length with hlt | hge
        · exact hlt
        · have := hpre.eq_of_length_le hge
          exact absurd (this ▸ List.prefix_rfl) (h.incomplete f (hall f hmem))
      · exact absurd hpre (h.incomplete f (hall f hmem))

/-- What has arrived of a stream reads as the first of its frames. -/
theorem Splits.of_append {s t rest : List α} {frames : List (List α)}
    (h : F.Splits (s ++ t) frames rest) :
    ∃ n rest', F.Splits s (frames.take n) rest' := by
  obtain ⟨heq, hframes, hrest⟩ := h
  induction frames generalizing s with
  | nil =>
      refine ⟨0, s, rfl, by simp, hrest.of_isPrefix ⟨t, ?_⟩⟩
      simpa using heq
  | cons f fs ih =>
      have hf := hframes f List.mem_cons_self
      rw [List.flatten_cons, List.append_assoc] at heq
      rcases List.prefix_or_prefix_of_prefix ⟨t, rfl⟩ ⟨_, heq.symm⟩ with hpre | ⟨u, hu⟩
      · by_cases hsf : s = f
        · refine ⟨1, [], ?_⟩
          rw [hsf, List.take_succ_cons, List.take_zero]
          exact ⟨by simp, by simpa using hf, incomplete_nil⟩
        · -- the first frame has not arrived whole
          refine ⟨0, s, rfl, by simp, ?_⟩
          intro g hg hgs
          have hgf := F.eq_of_isPrefix hg hf (hgs.trans hpre)
          subst hgf
          exact hsf (List.IsPrefix.eq_of_length_le hpre hgs.length_le)
      · subst hu
        rw [List.append_assoc] at heq
        obtain ⟨n, rest', hsplit⟩ := ih (List.append_cancel_left heq)
          fun x hx => hframes x (List.mem_cons_of_mem f hx)
        refine ⟨n + 1, rest', ?_, ?_, hsplit.incomplete⟩
        · rw [List.take_succ_cons, List.flatten_cons, List.append_assoc, ← hsplit.stream_eq]
        · intro g hg
          rw [List.take_succ_cons] at hg
          rcases List.mem_cons.1 hg with rfl | hg
          · exact hf
          · exact hsplit.isFrame g hg

end Framing

end Bango.Lib
