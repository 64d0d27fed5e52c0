import RtaiDemos.Press.Machine

/-!
# No pulse lost

What a reset finds beyond the pulses of an item is lost, and so are the 2^32 of an
overflow. Nothing brings lost pulses back, so the items and the count account for every
pulse exactly as long as no step has lost one.
-/

namespace RtaiDemos.Press

open CInt

/-- The pulses that neither an item nor `encoder_count` stands for; between the reset and
`Pressed_Items++` the item is not counted yet. -/
def State.lost (J : Job) (σ : State) : Int :=
  σ.pulses - (σ.Pressed_Items * J.pulsesPerItem + σ.encoder_count) -
    if σ.main = .press then J.pulsesPerItem else 0

/-- `encoder_count` is an int; so is the number of pulses of an item that has passed the
test. -/
structure State.Ranged (J : Job) (σ : State) : Prop where
  count : Fits σ.encoder_count
  item : σ.main = .reset → J.pulsesPerItem ≤ 2147483647

/-- No pulse is lost, and before a reset there is an item. -/
structure State.Exact (J : Job) (σ : State) : Prop where
  lost : σ.lost J = 0
  item : σ.main = .reset → J.pulsesPerItem ≤ σ.encoder_count

/-- Pulses are lost, whatever a reset finds. -/
structure State.Short (J : Job) (σ : State) : Prop where
  lost : 0 < σ.lost J
  item : σ.main = .reset → 0 < σ.lost J + σ.encoder_count - J.pulsesPerItem

/-! ### Statements -/

theorem ratio_le_iff (J : Job) (c : Int) : J.ratio ≤ c ↔ J.pulsesPerItem ≤ c := Int.ceil_le.symm

theorem toInt_succ {c : Int} (h : Fits c) :
    toInt (c + 1) = if c < 2147483647 then c + 1 else -2147483648 := by
  obtain ⟨hlo, hhi⟩ := h
  split
  · exact toInt_of_fits ⟨by omega, by omega⟩
  · have hlast : c = 2147483647 := by omega
    subst hlast
    decide

/-- The count, the items and the pulses are the same. -/
structure State.Same (σ σ' : State) : Prop where
  count : σ'.encoder_count = σ.encoder_count
  items : σ'.Pressed_Items = σ.Pressed_Items
  pulses : σ'.pulses = σ.pulses

/-- What a step can do to them. -/
inductive Effect (J : Job) (σ : State) : Label → State → Prop
  | other {a σ'} : σ.Same σ' → (σ'.main = .press ↔ σ.main = .press) →
      (σ'.main = .reset → σ.main = .reset) → Sound J σ a → Effect J σ a σ'
  | count {σ'} : σ.encoder = .count → σ'.encoder_count = toInt (σ.encoder_count + 1) →
      σ'.Pressed_Items = σ.Pressed_Items → σ'.pulses = σ.pulses + 1 → σ'.main = σ.main →
      Effect J σ .encoder σ'
  | test {σ'} : σ.main = .test → σ'.main = .reset → J.pulsesPerItem ≤ σ.encoder_count →
      σ.Same σ' → Effect J σ .main σ'
  | reset {σ'} : σ.main = .reset → σ'.main = .press → σ'.encoder_count = 0 →
      σ'.Pressed_Items = σ.Pressed_Items → σ'.pulses = σ.pulses → Effect J σ .main σ'
  | press {σ'} : σ.main = .press → σ'.main = .display → σ'.encoder_count = σ.encoder_count →
      σ'.Pressed_Items = σ.Pressed_Items + 1 → σ'.pulses = σ.pulses → Effect J σ .main σ'

theorem sound_encoder {J : Job} {σ : State} (h : σ.encoder ≠ .count) : Sound J σ .encoder :=
  ⟨nofun, fun _ hcount => absurd hcount h⟩

theorem sound_main {J : Job} {σ : State} (h : σ.main ≠ .reset) : Sound J σ .main :=
  ⟨fun _ hreset => absurd hreset h, nofun⟩

theorem countOwn_same (σ : State) : σ.Same σ.countOwn ∧ σ.countOwn.main = σ.main := by
  unfold State.countOwn
  simp only
  split
  · exact ⟨⟨rfl, rfl, rfl⟩, rfl⟩
  · exact ⟨⟨rfl, rfl, rfl⟩, rfl⟩

theorem encoderStep_effect {J : Job} {σ σ' : State} (h : σ.encoderStep = some σ') :
    Effect J σ .encoder σ' := by
  unfold State.encoderStep at h
  split at h
  · rename_i hpc
    cases h
    exact .other ⟨rfl, rfl, rfl⟩ Iff.rfl id (sound_encoder (by rw [hpc]; nofun))
  · rename_i hpc
    split at h
    · cases h
      exact .other ⟨rfl, rfl, rfl⟩ Iff.rfl id (sound_encoder (by rw [hpc]; nofun))
    · cases h
  · rename_i hpc
    cases h
    exact .count hpc rfl rfl rfl rfl
  · rename_i hpc
    cases h
    obtain ⟨⟨hcount, hitems, hpulses⟩, hmain⟩ := countOwn_same σ
    refine .other ⟨hcount, hitems, hpulses⟩ ?_ ?_ (sound_encoder (by rw [hpc]; nofun))
    · exact iff_of_eq (congrArg (· = MainPc.press) hmain)
    · exact fun hreset => hmain.symm.trans hreset
  · cases h

theorem mainStep_effect {J : Job} {σ σ' : State} (h : σ.mainStep J = some σ') :
    Effect J σ .main σ' := by
  have hother : ∀ {pc : MainPc}, σ'.main = pc → σ.Same σ' → σ.main ≠ .reset → σ.main ≠ .press →
      pc ≠ .reset → pc ≠ .press → Effect J σ .main σ' := by
    rintro pc rfl hsame hreset hpress hreset' hpress'
    exact .other hsame (iff_of_false hpress' hpress) (fun hr => absurd hr hreset')
      (sound_main hreset)
  unfold State.mainStep at h
  split at h
  · rename_i hpc
    cases h
    exact hother rfl ⟨rfl, rfl, rfl⟩ (by rw [hpc]; nofun) (by rw [hpc]; nofun) nofun nofun
  · rename_i hpc
    cases h
    refine hother rfl ⟨rfl, rfl, rfl⟩ (by rw [hpc]; nofun) (by rw [hpc]; nofun) ?_ ?_
    · split <;> nofun
    · split <;> nofun
  · rename_i hpc
    cases h
    by_cases hitem : J.ratio ≤ σ.encoder_count
    · exact .test hpc (if_pos hitem) ((ratio_le_iff J _).mp hitem) ⟨rfl, rfl, rfl⟩
    · refine hother (if_neg hitem) ⟨rfl, rfl, rfl⟩ (by rw [hpc]; nofun) (by rw [hpc]; nofun)
        nofun nofun
  · rename_i hpc
    cases h
    exact .reset hpc rfl rfl rfl rfl
  · rename_i hpc
    cases h
    exact .press hpc rfl rfl rfl rfl
  · rename_i hpc
    cases h
    exact hother rfl ⟨rfl, rfl, rfl⟩ (by rw [hpc]; nofun) (by rw [hpc]; nofun) nofun nofun
  · rename_i hpc
    cases h
    exact hother rfl ⟨rfl, rfl, rfl⟩ (by rw [hpc]; nofun) (by rw [hpc]; nofun) nofun nofun
  · cases h

theorem step_effect {J : Job} {σ σ' : State} {a : Label} (h : step J σ a = some σ') :
    Effect J σ a σ' := by
  cases a with
  | pulse =>
      cases h
      exact .other ⟨rfl, rfl, rfl⟩ Iff.rfl id ⟨nofun, nofun⟩
  | sigint =>
      cases h
      exact .other ⟨rfl, rfl, rfl⟩ Iff.rfl id ⟨nofun, nofun⟩
  | encoder => exact encoderStep_effect h
  | main => exact mainStep_effect h

/-! ### Lost pulses -/

section Lost

variable {J : Job} {σ σ' : State} {a : Label}

theorem lost_other (hsame : σ.Same σ') (hpress : σ'.main = .press ↔ σ.main = .press) :
    σ'.lost J = σ.lost J := by
  unfold State.lost
  rw [hsame.count, hsame.items, hsame.pulses]
  simp only [hpress]

theorem lost_count (hcount : σ'.encoder_count = toInt (σ.encoder_count + 1))
    (hitems : σ'.Pressed_Items = σ.Pressed_Items) (hpulses : σ'.pulses = σ.pulses + 1)
    (hmain : σ'.main = σ.main) :
    σ'.lost J = σ.lost J + (σ.encoder_count + 1 - σ'.encoder_count) := by
  unfold State.lost
  rw [hitems, hpulses, hmain, hcount]
  push_cast
  ring

theorem lost_reset (hreset : σ.main = .reset) (hpress : σ'.main = .press)
    (hcount : σ'.encoder_count = 0) (hitems : σ'.Pressed_Items = σ.Pressed_Items)
    (hpulses : σ'.pulses = σ.pulses) :
    σ'.lost J = σ.lost J + σ.encoder_count - J.pulsesPerItem := by
  unfold State.lost
  rw [if_pos hpress, if_neg (by rw [hreset]; nofun), hcount, hitems, hpulses]
  ring

theorem lost_press (hpress : σ.main = .press) (hdisplay : σ'.main = .display)
    (hcount : σ'.encoder_count = σ.encoder_count)
    (hitems : σ'.Pressed_Items = σ.Pressed_Items + 1) (hpulses : σ'.pulses = σ.pulses) :
    σ'.lost J = σ.lost J := by
  unfold State.lost
  rw [if_pos hpress, if_neg (by rw [hdisplay]; nofun), hcount, hitems, hpulses]
  ring

theorem lost_test (htest : σ.main = .test) (hreset : σ'.main = .reset) (hsame : σ.Same σ') :
    σ'.lost J = σ.lost J := by
  refine lost_other hsame ?_
  rw [htest, hreset]
  exact iff_of_false nofun nofun

theorem State.Ranged.of_ne (hcount : Fits σ.encoder_count) (hne : σ.main ≠ .reset) : σ.Ranged J :=
  ⟨hcount, fun hr => absurd hr hne⟩

theorem State.Exact.of_ne (hlost : σ.lost J = 0) (hne : σ.main ≠ .reset) : σ.Exact J :=
  ⟨hlost, fun hr => absurd hr hne⟩

theorem State.Short.of_ne (hlost : 0 < σ.lost J) (hne : σ.main ≠ .reset) : σ.Short J :=
  ⟨hlost, fun hr => absurd hr hne⟩

/-- A step keeps the ranges. -/
theorem State.Ranged.kept (hI : σ.Ranged J) (h : step J σ a = some σ') : σ'.Ranged J := by
  cases step_effect h with
  | other hsame _ hreset _ =>
      exact ⟨by rw [hsame.count]; exact hI.count, fun hr => hI.item (hreset hr)⟩
  | count _ hcount _ _ hmain =>
      exact ⟨by rw [hcount]; exact toInt_fits _, fun hr => hI.item (hmain ▸ hr)⟩
  | test _ _ hitem hsame =>
      exact ⟨by rw [hsame.count]; exact hI.count, fun _ => hitem.trans hI.count.2⟩
  | reset _ hpress hcount _ _ =>
      exact .of_ne (by rw [hcount]; decide) (by rw [hpress]; nofun)
  | press _ hdisplay hcount _ _ =>
      exact .of_ne (by rw [hcount]; exact hI.count) (by rw [hdisplay]; nofun)

/-- A sound step loses nothing. -/
theorem State.Exact.kept (hI : σ.Ranged J) (hQ : σ.Exact J) (h : step J σ a = some σ')
    (hok : Sound J σ a) : σ'.Exact J := by
  obtain ⟨hlost, hitem⟩ := hQ
  cases step_effect h with
  | other hsame hpress hreset _ =>
      refine ⟨(lost_other hsame hpress).trans hlost, fun hr => ?_⟩
      rw [hsame.count]
      exact hitem (hreset hr)
  | count hpc hcount hitems hpulses hmain =>
      have hlt := hok.2 rfl hpc
      rw [toInt_succ hI.count, if_pos hlt] at hcount
      have hstep := lost_count (J := J) (by rw [hcount, toInt_succ hI.count, if_pos hlt]) hitems
        hpulses hmain
      refine ⟨by omega, fun hr => ?_⟩
      have := hitem (hmain ▸ hr)
      omega
  | test htest hreset hle hsame =>
      refine ⟨(lost_test htest hreset hsame).trans hlost, fun _ => ?_⟩
      rw [hsame.count]
      exact hle
  | reset hreset hpress hcount hitems hpulses =>
      have hexact := hok.1 rfl hreset
      have hstep := lost_reset (J := J) hreset hpress hcount hitems hpulses
      exact .of_ne (by omega) (by rw [hpress]; nofun)
  | press hpress hdisplay hcount hitems hpulses =>
      have hstep := lost_press (J := J) hpress hdisplay hcount hitems hpulses
      exact .of_ne (by omega) (by rw [hdisplay]; nofun)

/-- A step that is not sound loses pulses. -/
theorem State.Exact.short (hI : σ.Ranged J) (hQ : σ.Exact J) (h : step J σ a = some σ')
    (hbad : ¬ Sound J σ a) : σ'.Short J := by
  obtain ⟨hlost, hitem⟩ := hQ
  cases step_effect h with
  | other _ _ _ hok => exact absurd hok hbad
  | count hpc hcount hitems hpulses hmain =>
      have hlast : ¬ σ.encoder_count < 2147483647 := fun hlt => hbad ⟨nofun, fun _ _ => hlt⟩
      have hstep := lost_count (J := J) hcount hitems hpulses hmain
      rw [toInt_succ hI.count, if_neg hlast] at hcount
      refine ⟨by omega, fun hr => ?_⟩
      have := hI.item (hmain ▸ hr)
      omega
  | test htest _ _ _ => exact absurd (sound_main (by rw [htest]; nofun)) hbad
  | reset hreset hpress hcount hitems hpulses =>
      have hle := hitem hreset
      have hne : σ.encoder_count ≠ J.pulsesPerItem := fun heq => hbad ⟨fun _ _ => heq, nofun⟩
      have hstep := lost_reset (J := J) hreset hpress hcount hitems hpulses
      exact .of_ne (by omega) (by rw [hpress]; nofun)
  | press hpress _ _ _ _ => exact absurd (sound_main (by rw [hpress]; nofun)) hbad

/-- Lost pulses do not come back. -/
theorem State.Short.kept (hI : σ.Ranged J) (hB : σ.Short J) (h : step J σ a = some σ') :
    σ'.Short J := by
  obtain ⟨hlost, hitem⟩ := hB
  cases step_effect h with
  | other hsame hpress hreset _ =>
      have hstep := lost_other (J := J) hsame hpress
      refine ⟨by omega, fun hr => ?_⟩
      rw [hsame.count, hstep]
      exact hitem (hreset hr)
  | count _ hcount hitems hpulses hmain =>
      have hstep := lost_count (J := J) hcount hitems hpulses hmain
      rw [toInt_succ hI.count] at hcount
      have hlast := hI.count.2
      refine ⟨by split at hcount <;> omega, fun hr => ?_⟩
      have hshort := hitem (hmain ▸ hr)
      have hrange := hI.item (hmain ▸ hr)
      split at hcount <;> omega
  | test htest hreset hle hsame =>
      have hstep := lost_test (J := J) htest hreset hsame
      refine ⟨by omega, fun _ => ?_⟩
      rw [hsame.count, hstep]
      omega
  | reset hreset hpress hcount hitems hpulses =>
      have hshort := hitem hreset
      have hstep := lost_reset (J := J) hreset hpress hcount hitems hpulses
      exact .of_ne (by omega) (by rw [hpress]; nofun)
  | press hpress hdisplay hcount hitems hpulses =>
      have hstep := lost_press (J := J) hpress hdisplay hcount hitems hpulses
      exact .of_ne (by omega) (by rw [hdisplay]; nofun)

end Lost

/-! ### Runs -/

theorem initState_ranged (J : Job) : initState.Ranged J := ⟨by decide, nofun⟩

theorem initState_exact (J : Job) : initState.Exact J := by
  refine ⟨?_, nofun⟩
  unfold State.lost initState
  simp

/-- At the head of the loop no pulse is lost exactly if the items and the count are all
the pulses. -/
theorem balanced_iff {J : Job} {σ : State} (hhead : σ.main = .head) :
    σ.Balanced J ↔ σ.lost J = 0 := by
  unfold State.Balanced State.lost
  rw [if_neg (by rw [hhead]; nofun)]
  omega

/-- Whenever `main` is at the head of its loop, the items and the count are the pulses
counted if and only if every step so far was sound: each reset has found the pulses of one
item, and no increment the last int. -/
theorem no_pulse_lost_iff (J : Job) {as : List Label} {σ : State}
    (hrun : (press J).run initState as = some σ) (hhead : σ.main = .head) :
    σ.Balanced J ↔ (press J).Along (Sound J) initState as := by
  obtain ⟨hall, hsome⟩ := TSys.run_along (M := press J) (I := State.Ranged J)
    (Q := State.Exact J) (B := State.Short J) (fun _ _ _ hI h => hI.kept h)
    (fun _ _ _ hI hQ h hok => hQ.kept hI h hok) (fun _ _ _ hI hQ h hbad => hQ.short hI h hbad)
    (fun _ _ _ hI hB h => hB.kept hI h) (initState_ranged J) (initState_exact J) hrun
  rw [balanced_iff hhead]
  constructor
  · intro hlost
    by_contra hno
    have := (hsome hno).lost
    omega
  · exact fun halong => (hall halong).lost

/-- Items of two pulses. -/
def twoPulses : Job := ⟨2, by decide, 10⟩

/-- A pulse, counted. -/
def pulseCounted : List Label := .pulse :: List.replicate 4 .encoder

/-- Two pulses; `main` up to the reset, and on to the head of its loop, with other pulses
in between. -/
def pressItem (between : List Label) : List Label :=
  pulseCounted ++ pulseCounted ++ List.replicate 3 .main ++ between ++ List.replicate 3 .main

/-- An item is pressed with no pulse lost. -/
theorem no_pulse_lost_item : ∃ σ, (press twoPulses).run initState (pressItem []) = some σ ∧
    σ.main = .head ∧
      (σ.Balanced twoPulses ↔ (press twoPulses).Along (Sound twoPulses) initState (pressItem [])) := by
  have hleads : (press twoPulses).leadsTo initState (pressItem [])
      (fun σ => decide (σ.main = .head)) = true := by decide +kernel
  obtain ⟨σ, hrun, hhead⟩ := TSys.run_of_leadsTo hleads
  exact ⟨σ, hrun, of_decide_eq_true hhead, no_pulse_lost_iff twoPulses hrun (of_decide_eq_true hhead)⟩

/-- A third pulse between the test and the reset is lost. -/
theorem third_pulse_lost :
    ¬ ∀ J : Job, (press J).Invariant fun σ => σ.main = .head → σ.Balanced J := by
  intro h
  have hleads : (press twoPulses).leadsTo initState (pressItem pulseCounted)
      (fun σ => decide (σ.main = .head ∧ σ.Pressed_Items = 1 ∧ σ.encoder_count = 0 ∧
        σ.pulses = 3)) = true := by decide +kernel
  obtain ⟨σ, hr, hask⟩ := TSys.Reachable.of_leadsTo rfl hleads
  obtain ⟨hhead, hitems, hcount, hpulses⟩ := of_decide_eq_true hask
  have hbalanced := h twoPulses σ hr hhead
  unfold State.Balanced at hbalanced
  rw [hitems, hcount, hpulses, show twoPulses.pulsesPerItem = 2 from by decide +kernel] at hbalanced
  omega

end RtaiDemos.Press
