import RtaiDemos.Soundmsg.Logic.Ledger

/-!
# Playing the file

The end request travels like the data. A file whose last bytes come alone and are those of
the request ends the speaker; every other file is played as it is.
-/

namespace RtaiDemos.Soundmsg

variable {file : List UInt8}

/-! ### Files that are played -/

theorem mainStep_ended {σ σ' : State} (h : σ.mainStep file = some σ') : σ'.ended = σ.ended := by
  unfold State.mainStep at h
  split at h
  · split at h
    · cases h
      rfl
    · cases h
  · cases h
    rfl
  · cases h
    rfl
  · cases h
    rfl
  · cases h
    rfl
  · cases h
    rfl
  · obtain ⟨_, _, rfl⟩ := Option.map_eq_some_iff.mp h
    rfl
  · cases h
    rfl
  · obtain ⟨_, _, rfl⟩ := Option.map_eq_some_iff.mp h
    rfl
  · cases h

theorem speakerStep_ended {σ σ' : State} (h : σ.speakerStep = some σ') : σ'.ended = σ.ended := by
  unfold State.speakerStep at h
  split at h
  · cases h
    rfl
  · split at h
    · cases h
    · cases h
      rfl
  · cases h
    rfl
  · obtain ⟨_, _, rfl⟩ := Option.map_eq_some_iff.mp h
    rfl
  · split at h
    · cases h
      rfl
    · cases h
      rfl
  · split at h
    · cases h
      rfl
    · cases h
      rfl
  · cases h
    rfl
  · split at h
    · cases h
      rfl
    · cases h
      rfl
  · cases h
    rfl
  · cases h

/-- While there is no SIGINT, the bytes are where they should be. -/
theorem inv_invariant (hend : ¬ EndsInRequest file) :
    (player file).Invariant fun σ => σ.ended = false → Inv file σ := by
  refine TSys.Invariant.of_inductive ?_ ?_
  · rintro σ ⟨buf, i, hbuf, rfl⟩ _
    exact initState_inv hbuf i
  · intro σ σ' a h hstep hrun
    cases a with
    | sigint =>
        cases hstep
        cases hrun
    | main =>
        have hrun' : σ.ended = false := (mainStep_ended hstep).symm.trans hrun
        exact (h hrun').mainStep hrun' hstep
    | speaker =>
        have hrun' : σ.ended = false := (speakerStep_ended hstep).symm.trans hrun
        exact (h hrun').speakerStep hrun' hend hstep

theorem Inv.faithful {σ : State} (h : Inv file σ) : σ.Faithful file := by
  refine ⟨?_, h.buffer.listening, fun hpc => ?_⟩
  · obtain ⟨n, hledger⟩ := h.ledger
    refine ⟨n + 1, ?_⟩
    have hread : (List.replicate n file).flatten ++ file.take σ.pos <+:
        (List.replicate (n + 1) file).flatten := by
      rw [← flatten_replicate_succ]
      exact (List.prefix_append_right_inj _).mpr (List.take_prefix _ _)
    rw [← hledger, List.append_assoc] at hread
    exact (List.prefix_append _ _).trans hread
  · have hlen := h.buffer.play hpc
    have hbuf := h.buffer.length
    rcases h.buffer.place (by rw [hpc]; rfl) with hzero | hplace
    · exact absurd hzero hlen
    · omega

/-! ### Files that end the speaker -/

/-- `main` before the next chunk at `pos`, nothing sent, and the speaker at work. -/
def stateAt (pos : Nat) (speaker : SpeakerPc) (buf : List UInt8) (i len : Nat)
    (played : List UInt8) : State :=
  ⟨false, .inner, pos, false, none, none, speaker, buf, i, len, played⟩

/-- A chunk goes to the speaker, up to the test for the end request. -/
theorem handover_steps {pos : Nat} (hpos : (chunk file pos).length > 0) (buf : List UInt8) (i : Nat)
    (played : List UInt8) :
    (player file).Steps (stateAt pos .test buf i 0 played)
      (stateAt (pos + (chunk file pos).length) .check
        (overlay (overlay buf (chunk file pos)) (chunk file pos)) (chunk file pos).length
        (chunk file pos).length played) := by
  refine @TSys.Steps.of_run _ _ _
    [.main, .main, .main, .speaker, .speaker, .speaker, .speaker, .main] _ _ ?_
  simp [TSys.run, player, step, stateAt, State.mainStep, State.speakerStep, hpos]

/-- What is in the buffer is played. -/
theorem play_steps (file : List UInt8) (pos : Nat) {buf : List UInt8} (len : Nat) :
    ∀ (i : Nat) (played : List UInt8), i + len ≤ buf.length → ∃ i' played',
      (player file).Steps (stateAt pos .test buf i len played)
        (stateAt pos .test buf i' 0 played') := by
  induction len with
  | zero =>
      intro i played _
      exact ⟨i, played, .refl⟩
  | succ len ih =>
      intro i played hlen
      obtain ⟨x, hx⟩ : ∃ x, buf[i]? = some x := ⟨_, List.getElem?_eq_getElem (by omega)⟩
      obtain ⟨i', played', hrest⟩ := ih (i + 1) (played ++ [x]) (by omega)
      refine ⟨i', played', .trans ?_ hrest⟩
      refine @TSys.Steps.of_run _ _ _ [.speaker, .speaker, .speaker] _ _ ?_
      simp [TSys.run, player, step, stateAt, State.speakerStep, hx]

/-- The chunks before the last one are played. -/
theorem chunks_steps (file : List UInt8) (k : Nat) (hk : BUFSIZE * k ≤ file.length) :
    ∃ buf i played, buf.length = BUFSIZE ∧
      (player file).Steps (initState (List.replicate BUFSIZE 0) 0)
        (stateAt (BUFSIZE * k) .test buf i 0 played) := by
  induction k with
  | zero =>
      refine ⟨List.replicate BUFSIZE 0, 0, [], List.length_replicate, ?_⟩
      refine @TSys.Steps.of_run _ _ _ [.speaker, .main, .speaker, .main, .main] _ _ ?_
      simp [TSys.run, player, step, stateAt, initState, State.mainStep, State.speakerStep]
  | succ k ih =>
      rw [Nat.mul_succ] at hk
      obtain ⟨buf, i, played, hbuf, hsteps⟩ := ih (by omega)
      have hlen : (chunk file (BUFSIZE * k)).length = BUFSIZE := by
        rw [chunk_length]
        omega
      have hpos : (chunk file (BUFSIZE * k)).length > 0 := by
        rw [hlen]
        decide
      have hover := overlay_length (overlay_length hbuf (Nat.le_of_eq hlen)) (Nat.le_of_eq hlen)
      have hhand := handover_steps hpos buf i played
      rw [hlen, ← Nat.mul_succ] at hhand
      have hplaces := Nat.le_of_eq ((Nat.zero_add BUFSIZE).trans hover.symm)
      obtain ⟨i', played', hplay⟩ := play_steps file (BUFSIZE * (k + 1)) BUFSIZE 0 played hplaces
      refine ⟨_, i', played', hover, (hsteps.trans hhand).trans (.trans ?_ hplay)⟩
      refine @TSys.Steps.of_run _ _ _ [.speaker, .speaker] _ _ ?_
      simp [TSys.run, player, step, stateAt, State.speakerStep, BUFSIZE]

/-- The last chunk is taken for the end request. -/
theorem speaker_leaves {file : List UInt8} (h : EndsInRequest file) :
    ∃ σ, (player file).Reachable σ ∧ σ.ended = false ∧ σ.speaker = .left := by
  obtain ⟨hmod, hlast⟩ := h
  have hdiv := Nat.div_add_mod file.length BUFSIZE
  rw [hmod] at hdiv
  obtain ⟨buf, i, played, hbuf, hsteps⟩ := chunks_steps file (file.length / BUFSIZE) (by omega)
  have hpos : file.length - 4 = BUFSIZE * (file.length / BUFSIZE) := by omega
  have hchunk : chunk file (BUFSIZE * (file.length / BUFSIZE)) = endRequest := by
    unfold chunk
    rw [← hpos, hlast]
    rfl
  have hhand := handover_steps (by rw [hchunk]; decide) buf i played
  rw [hchunk] at hhand
  have hover : (overlay (overlay buf endRequest) endRequest).take 4 = endRequest :=
    overlay_take (by decide : endRequest.length ≤ BUFSIZE)
  have hleft : (player file).run
      (stateAt (BUFSIZE * (file.length / BUFSIZE) + endRequest.length) .check
        (overlay (overlay buf endRequest) endRequest) endRequest.length endRequest.length played)
      [.speaker] = some (stateAt (BUFSIZE * (file.length / BUFSIZE) + endRequest.length) .left
        (overlay (overlay buf endRequest) endRequest) endRequest.length endRequest.length played) := by
    have hfour : endRequest.length = 4 := rfl
    simp [TSys.run, player, step, stateAt, State.speakerStep, hover, hfour]
  refine ⟨_, TSys.Reachable.steps (.init ⟨_, _, List.length_replicate, rfl⟩)
    ((hsteps.trans hhand).trans (TSys.Steps.of_run hleft)), rfl, rfl⟩

/-! ### The player -/

/-- While there is no SIGINT, the player plays the file, pass after pass, and the speaker
stays in its loop, if and only if the last bytes of the file are not an end request. -/
theorem faithful_iff (file : List UInt8) :
    (player file).Invariant (fun σ => σ.ended = false → σ.Faithful file) ↔
      ¬ EndsInRequest file := by
  constructor
  · intro h hend
    obtain ⟨σ, hr, hrun, hleft⟩ := speaker_leaves hend
    exact (h σ hr hrun).listening hleft
  · intro hend σ hr hrun
    exact (inv_invariant hend σ hr hrun).faithful

/-- A file of four bytes 0xFF. -/
theorem four_bytes_end :
    ¬ ∀ file : List UInt8,
      (player file).Invariant (fun σ => σ.ended = false → σ.Faithful file) := by
  intro h
  obtain ⟨σ, hr, hrun, hleft⟩ := speaker_leaves (⟨rfl, rfl⟩ : EndsInRequest endRequest)
  exact (h endRequest σ hr hrun).listening hleft

end RtaiDemos.Soundmsg
