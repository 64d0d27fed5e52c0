import RtaiDemos.Timerbench.Device

/-!
# The owner of the histogram buffer

`mode`, `histogram_size` and `histogram_min` together say that the context owns a
buffer. In every run in which a start never takes the buffer of another benchmark,
one with histograms gets a block that holds them, as far as setting `mode`, and has
the context for itself, and a negative number of cells is never used, each buffer is
freed once and used only while it is allocated. `rt_tmbench_start` itself requires
none of that.
-/

namespace RtaiDemos.Timerbench

variable {w : Nat} {d d' : Device}

/-- `rt_tmbench_start` gets as far as setting `mode`. -/
def StartOutcome.sets (o : StartOutcome) (config : Config) : Bool :=
  !o.closing && (config.mode != RTTST_TMBENCH_TASK || o.task_err == 0)

namespace Device

/-- The fields say that the context has a buffer. -/
def Holding (d : Device) : Prop :=
  d.opened = true ∧ 0 ≤ d.mode ∧ 0 < d.histogram_size ∧ d.histogram_min.isSome = true

instance (d : Device) : Decidable d.Holding :=
  inferInstanceAs (Decidable (_ ∧ _ ∧ _ ∧ _))

/-- No task or timer of the context runs. -/
def Quiet (d : Device) : Prop := d.task = false ∧ d.timer = false ∧ d.strays = 0

instance (d : Device) : Decidable d.Quiet := inferInstanceAs (Decidable (_ ∧ _ ∧ _))

theorem Quiet.still (h : d.Quiet) : ¬ d.task = true ∧ ¬ d.timer = true :=
  ⟨Bool.eq_false_iff.mp h.1, Bool.eq_false_iff.mp h.2.1⟩

end Device

/-- A start finds no buffer; with histograms it finds nothing that runs, gets a block
that holds them if it gets one, and then sets `mode`. A negative number of cells is
neither evaluated nor closed. -/
def Orderly (w : Nat) (d : Device) : Request → Prop
  | .start config o => o.copied = true → ¬ d.Holding ∧ (0 < config.histogram_size →
      d.Quiet ∧ (o.kmalloc = true → o.sets config = true ∧
        holdsThree w config.histogram_size (kmallocSize w config.histogram_size) = true))
  | .close => 0 ≤ d.mode → 0 ≤ d.histogram_size
  | .eval => 0 ≤ d.histogram_size
  | _ => True

instance (w : Nat) (d : Device) : (r : Request) → Decidable (Orderly w d r)
  | .start config o => inferInstanceAs (Decidable (o.copied = true → ¬ d.Holding ∧
      (0 < config.histogram_size → d.Quiet ∧ (o.kmalloc = true → o.sets config = true ∧
        holdsThree w config.histogram_size (kmallocSize w config.histogram_size) = true))))
  | .close => inferInstanceAs (Decidable (0 ≤ d.mode → 0 ≤ d.histogram_size))
  | .eval => inferInstanceAs (Decidable (0 ≤ d.histogram_size))
  | .opens | .stop _ _ => .isTrue trivial

/-- What is required of the buffers. -/
structure Buffered (d : Device) : Prop where
  freed_once : d.freed.Nodup ∧ ∀ b ∈ d.freed, b < d.blocks.length
  not_misused : d.misused = false
  all_freed : d.opened = false → ∀ b, b < d.blocks.length → b ∈ d.freed

/-- The context owns no buffer, or the one that `histogram_min` points to, and then what
runs is what its mode says. -/
structure Owns (w : Nat) (d : Device) : Prop where
  freed_once : d.freed.Nodup
  freed_allocated : ∀ b ∈ d.freed, b < d.blocks.length
  not_misused : d.misused = false
  resting : ¬ d.Holding → ∀ b, b < d.blocks.length → b ∈ d.freed
  owning : d.Holding → ∃ n bytes, d.histogram_min = some n ∧ d.blocks[n]? = some bytes ∧
    holdsThree w d.histogram_size bytes = true ∧ n ∉ d.freed ∧
    ∀ b, b < d.blocks.length → b ≠ n → b ∈ d.freed
  runs : 0 < d.histogram_size → d.strays = 0 ∧
    (d.task = true → d.Holding ∧ d.mode = RTTST_TMBENCH_TASK) ∧
    (d.timer = true → d.Holding ∧ d.mode = RTTST_TMBENCH_HANDLER)

/-- A context without a buffer. -/
theorem Owns.of_resting (hrest : ¬ d.Holding) (hall : ∀ b, b < d.blocks.length → b ∈ d.freed)
    (hnodup : d.freed.Nodup) (hsub : ∀ b ∈ d.freed, b < d.blocks.length)
    (hmisused : d.misused = false) (hquiet : 0 < d.histogram_size → d.Quiet) : Owns w d := by
  refine ⟨hnodup, hsub, hmisused, fun _ => hall, fun h => absurd h hrest, ?_⟩
  intro hsize
  obtain ⟨htask, htimer, hstrays⟩ := hquiet hsize
  refine ⟨hstrays, ?_, ?_⟩
  · rw [htask]
    nofun
  · rw [htimer]
    nofun

/-- What `kfree` is called for when the context has a buffer is the last that is not freed. -/
theorem Owns.kfree (h : Owns w d) (hhold : d.Holding) :
    ∃ n, d.histogram_min = some n ∧ (∀ b, b < d.blocks.length → b ∈ d.freed ++ [n]) ∧
      (d.freed ++ [n]).Nodup ∧ ∀ b ∈ d.freed ++ [n], b < d.blocks.length := by
  obtain ⟨n, bytes, hptr, hblock, -, hnot, hrest⟩ := h.owning hhold
  obtain ⟨hlt, -⟩ := List.getElem?_eq_some_iff.mp hblock
  refine ⟨n, hptr, ?_, ?_, ?_⟩
  · intro b hb
    by_cases hbn : b = n
    · exact List.mem_append_right _ (List.mem_singleton.mpr hbn)
    · exact List.mem_append_left _ (hrest b hb hbn)
  · refine List.nodup_append.mpr ⟨h.freed_once, List.pairwise_singleton _ n, ?_⟩
    intro a ha b hb hab
    rw [hab, List.mem_singleton.mp hb] at ha
    exact hnot ha
  · intro b hb
    rcases List.mem_append.mp hb with hold | hnew
    · exact h.freed_allocated b hold
    · rw [List.mem_singleton.mp hnew]
      exact hlt

/-- `mode` is the last thing that says that there is a buffer. -/
theorem not_holding (h : d.mode < 0) : ¬ d.Holding := fun hhold => Int.not_le.mpr h hhold.2.1

theorem destroy_rest (d : Device) : ∃ task timer,
    d.destroy = { d with task := task, timer := timer } ∧
    (task = true → d.task = true ∧ d.mode ≠ RTTST_TMBENCH_TASK) ∧
    (timer = true → d.timer = true ∧ d.mode ≠ RTTST_TMBENCH_HANDLER) := by
  unfold Device.destroy
  split
  · rename_i hmode
    refine ⟨false, d.timer, rfl, nofun, fun h => ⟨h, ?_⟩⟩
    rw [hmode]
    decide
  · rename_i htask
    split
    · exact ⟨d.task, false, rfl, fun h => ⟨h, htask⟩, nofun⟩
    · rename_i htimer
      exact ⟨d.task, d.timer, rfl, fun h => ⟨h, htask⟩, fun h => ⟨h, htimer⟩⟩

/-- When the task or timer of the mode is destroyed, nothing runs beside a buffer. -/
theorem Owns.destroyed (h : Owns w d) (hsize : 0 < d.histogram_size) {task timer : Bool}
    (htask : task = true → d.task = true ∧ d.mode ≠ RTTST_TMBENCH_TASK)
    (htimer : timer = true → d.timer = true ∧ d.mode ≠ RTTST_TMBENCH_HANDLER) :
    task = false ∧ timer = false ∧ d.strays = 0 := by
  obtain ⟨hstrays, hown, hown'⟩ := h.runs hsize
  refine ⟨?_, ?_, hstrays⟩
  · by_contra hne
    obtain ⟨hruns, hmode⟩ := htask (by simpa using hne)
    exact hmode (hown hruns).2
  · by_contra hne
    obtain ⟨hruns, hmode⟩ := htimer (by simpa using hne)
    exact hmode (hown' hruns).2

theorem kfree_eq (d : Device) :
    d.kfree = { d with freed := d.freed ++ d.histogram_min.toList } := by
  unfold Device.kfree
  split
  · rename_i n hptr
    rw [show d.histogram_min.toList = [n] by rw [hptr]; rfl]
  · rename_i hptr
    rw [show d.freed ++ d.histogram_min.toList = d.freed by rw [hptr]; exact List.append_nil _]

/-- A context that is open, has a mode and cells but no buffer has no pointer. -/
theorem no_pointer (hrest : ¬ d.Holding) (hopened : d.opened = true) (hmode : 0 ≤ d.mode)
    (hsize : 0 < d.histogram_size) : d.histogram_min = none := by
  by_contra hne
  exact hrest ⟨hopened, hmode, hsize, Option.isSome_iff_ne_none.mpr hne⟩

theorem Owns.stop (h : Owns w d) (hopened : d.opened = true) (copy_err : Int) (copied : Bool) :
    Owns w (rt_tmbench_stop d copy_err copied).1 := by
  unfold rt_tmbench_stop
  by_cases hmode : d.mode < 0
  · rw [if_pos hmode]
    exact h
  · rw [if_neg hmode]
    have hneg : RTTST_TMBENCH_INVALID < 0 := by decide
    obtain ⟨task, timer, heq, htask, htimer⟩ := destroy_rest d
    rw [heq]
    dsimp only
    have hquiet := fun hsize => h.destroyed hsize htask htimer
    by_cases hsize : d.histogram_size > 0
    · rw [if_pos hsize]
      by_cases hhold : d.Holding
      · obtain ⟨n, hptr, hall, hnodup, hsub⟩ := h.kfree hhold
        simp only [kfree_eq, hptr, Option.toList_some]
        exact .of_resting (not_holding hneg) hall hnodup hsub h.not_misused hquiet
      · have hptr := no_pointer hhold hopened (by omega) hsize
        simp only [kfree_eq, hptr, Option.toList_none, List.append_nil]
        exact .of_resting (not_holding hneg) (h.resting hhold) h.freed_once h.freed_allocated
          h.not_misused hquiet
    · rw [if_neg hsize]
      exact .of_resting (not_holding hneg) (h.resting fun hhold => hsize hhold.2.2.1) h.freed_once
        h.freed_allocated h.not_misused hquiet

theorem Owns.close (h : Owns w d) (hopened : d.opened = true) (hok : Orderly w d .close) :
    Owns w (rt_tmbench_close d) := by
  unfold rt_tmbench_close
  by_cases hmode : d.mode ≥ 0
  · rw [if_pos hmode]
    obtain ⟨task, timer, heq, -, -⟩ := destroy_rest d
    rw [heq]
    dsimp only
    have hneg : RTTST_TMBENCH_INVALID < 0 := by decide
    have hnone : ¬ (0 : Int) < 0 := Int.lt_irrefl 0
    have hnonneg : 0 ≤ d.histogram_size := hok hmode
    by_cases hsize : d.histogram_size ≠ 0
    · rw [if_pos hsize]
      have hpos : 0 < d.histogram_size := by omega
      by_cases hhold : d.Holding
      · obtain ⟨n, hptr, hall, hnodup, hsub⟩ := h.kfree hhold
        simp only [kfree_eq, hptr, Option.toList_some]
        exact .of_resting (not_holding hneg) hall hnodup hsub h.not_misused
          fun hlt => absurd hlt hnone
      · have hptr := no_pointer hhold hopened hmode hpos
        simp only [kfree_eq, hptr, Option.toList_none, List.append_nil]
        exact .of_resting (not_holding hneg) (h.resting hhold) h.freed_once h.freed_allocated
          h.not_misused fun hlt => absurd hlt hnone
    · rw [if_neg hsize]
      have hrest : ¬ d.Holding := fun hhold => hsize (Int.ne_of_gt hhold.2.2.1)
      exact .of_resting (not_holding hneg) (h.resting hrest) h.freed_once h.freed_allocated
        h.not_misused fun hlt => absurd hlt hnone
  · rw [if_neg hmode]
    have hrest := not_holding (Int.not_le.mp hmode)
    refine .of_resting (fun hhold => nomatch hhold.1) (h.resting hrest) h.freed_once
      h.freed_allocated h.not_misused fun hsize => ?_
    obtain ⟨hstrays, htask, htimer⟩ := h.runs hsize
    refine ⟨?_, ?_, hstrays⟩
    · exact Bool.eq_false_iff.mpr fun hruns => hrest (htask hruns).1
    · exact Bool.eq_false_iff.mpr fun hruns => hrest (htimer hruns).1

/-- The end of a start changes `mode` and what runs. -/
theorem startTimer_rest (d : Device) (config : Config) (o : StartOutcome) :
    ∃ mode task timer strays, (startTimer d config o).1 =
        { d with mode := mode, task := task, timer := timer, strays := strays } ∧
      (o.sets config = true → 0 ≤ mode) ∧
      (d.Quiet → strays = 0 ∧ (task = true → mode = RTTST_TMBENCH_TASK) ∧
        (timer = true → mode = RTTST_TMBENCH_HANDLER)) := by
  unfold startTimer StartOutcome.sets
  by_cases hmode : config.mode = RTTST_TMBENCH_TASK
  · rw [if_pos hmode]
    cases hclosing : o.closing with
    | true =>
        refine ⟨RTTST_TMBENCH_INVALID, d.task, d.timer, d.strays, rfl, nofun, ?_⟩
        intro hquiet
        obtain ⟨htask, htimer⟩ := hquiet.still
        exact ⟨hquiet.2.2, fun h => absurd h htask, fun h => absurd h htimer⟩
    | false =>
        by_cases herr : o.task_err = 0
        · simp only [Bool.false_eq_true, if_false, if_pos herr, Device.task_init]
          refine ⟨RTTST_TMBENCH_TASK, true, d.timer, d.strays + d.task.toNat, rfl,
            fun _ => by decide, ?_⟩
          intro hquiet
          obtain ⟨htask, htimer⟩ := hquiet.still
          refine ⟨?_, fun _ => rfl, fun h => absurd h htimer⟩
          rw [hquiet.1, hquiet.2.2]
          rfl
        · simp only [Bool.false_eq_true, if_false, if_neg herr]
          refine ⟨RTTST_TMBENCH_INVALID, d.task, d.timer, d.strays, rfl, ?_, ?_⟩
          · intro hsets
            simp [hmode, herr] at hsets
          · intro hquiet
            obtain ⟨htask, htimer⟩ := hquiet.still
            exact ⟨hquiet.2.2, fun h => absurd h htask,
              fun h => absurd h htimer⟩
  · rw [if_neg hmode]
    simp only [Device.timer_init]
    cases hclosing : o.closing with
    | true =>
        refine ⟨RTTST_TMBENCH_INVALID, d.task, false, d.strays + d.timer.toNat, rfl, nofun, ?_⟩
        intro hquiet
        obtain ⟨htask, htimer⟩ := hquiet.still
        refine ⟨?_, fun h => absurd h htask, nofun⟩
        rw [hquiet.2.1, hquiet.2.2]
        rfl
    | false =>
        refine ⟨RTTST_TMBENCH_HANDLER, d.task, o.timer_err == 0, d.strays + d.timer.toNat, rfl,
          fun _ => by decide, ?_⟩
        intro hquiet
        obtain ⟨htask, htimer⟩ := hquiet.still
        refine ⟨?_, fun h => absurd h htask, fun _ => rfl⟩
        rw [hquiet.2.1, hquiet.2.2]
        rfl

theorem Owns.start (h : Owns w d) (hopened : d.opened = true) {config : Config} {o : StartOutcome}
    (hok : Orderly w d (.start config o)) : Owns w (rt_tmbench_start w d config o).1 := by
  unfold rt_tmbench_start
  cases hcopied : o.copied with
  | false =>
      rw [if_pos rfl]
      exact h
  | true =>
      rw [if_neg (by decide)]
      obtain ⟨hrest, hhist⟩ := hok hcopied
      have hall := h.resting hrest
      by_cases hsize : config.histogram_size > 0
      · simp only [if_pos hsize]
        obtain ⟨hquiet, hblock⟩ := hhist hsize
        cases hkmalloc : o.kmalloc with
        | false =>
            rw [if_neg (by decide)]
            exact .of_resting (fun hhold => nomatch hhold.2.2.2) hall h.freed_once
              h.freed_allocated h.not_misused fun _ => hquiet
        | true =>
            rw [if_pos rfl]
            obtain ⟨hsets, hholds⟩ := hblock hkmalloc
            obtain ⟨mode, task, timer, strays, heq, hmode, hruns⟩ := startTimer_rest
              { d with
                histogram_size := config.histogram_size
                histogram_min := some d.blocks.length
                blocks := d.blocks ++ [kmallocSize w config.histogram_size] } config o
            obtain ⟨hstrays, htask, htimer⟩ := hruns hquiet
            rw [heq]
            have hhold : Device.Holding
                { d with
                  histogram_size := config.histogram_size
                  histogram_min := some d.blocks.length
                  blocks := d.blocks ++ [kmallocSize w config.histogram_size]
                  mode := mode, task := task, timer := timer, strays := strays } :=
              ⟨hopened, hmode hsets, hsize, rfl⟩
            refine ⟨h.freed_once, ?_, h.not_misused, fun hno => absurd hhold hno, fun _ => ?_, ?_⟩
            · intro b hb
              rw [List.length_append]
              exact Nat.lt_add_right _ (h.freed_allocated b hb)
            · refine ⟨d.blocks.length, kmallocSize w config.histogram_size, rfl, ?_, hholds, ?_, ?_⟩
              · exact List.getElem?_concat_length
              · intro hmem
                exact Nat.lt_irrefl _ (h.freed_allocated _ hmem)
              · intro b hb hne
                rw [List.length_append, List.length_singleton] at hb
                exact hall b (Nat.lt_of_le_of_ne (Nat.le_of_lt_succ hb) hne)
            · exact fun _ => ⟨hstrays, fun ht => ⟨hhold, htask ht⟩, fun ht => ⟨hhold, htimer ht⟩⟩
      · simp only [if_neg hsize]
        obtain ⟨mode, task, timer, strays, heq, -, -⟩ := startTimer_rest
          { d with histogram_size := config.histogram_size } config o
        rw [heq]
        exact .of_resting (fun hhold => hsize hhold.2.2.1) hall h.freed_once h.freed_allocated
          h.not_misused fun hpos => absurd hpos hsize

theorem Owns.eval (h : Owns w d) (hruns : d.task = true ∨ d.timer = true ∨ 0 < d.strays)
    (hok : Orderly w d .eval) : Owns w (d.eval w) := by
  unfold Device.eval
  rw [if_neg]
  · exact h
  · rintro ⟨hne, hdead⟩
    have hnonneg : 0 ≤ d.histogram_size := hok
    have hsize : 0 < d.histogram_size := by omega
    -- what runs beside histograms runs for the context that has them
    obtain ⟨hstrays, htask, htimer⟩ := h.runs hsize
    have hhold : d.Holding := by
      rcases hruns with ht | ht | ht
      · exact (htask ht).1
      · exact (htimer ht).1
      · omega
    obtain ⟨n, bytes, hptr, hblock, hholds, hnot, -⟩ := h.owning hhold
    obtain ⟨hlt, -⟩ := List.getElem?_eq_some_iff.mp hblock
    refine hdead ?_
    rw [hptr, Option.any_some, Bool.and_eq_true_iff]
    refine ⟨?_, ?_⟩
    · simp only [Device.live, hlt, decide_true, Bool.true_and, Bool.not_eq_true',
        List.contains_eq_mem, hnot, decide_false]
    · simp only [Device.holds, hsize, decide_true, Bool.true_and, hblock, Option.any_some, hholds]

theorem Owns.opens (h : Owns w d) (hclosed : d.opened = false) : Owns w (rt_tmbench_open d) := by
  have hrest : ¬ d.Holding := fun hhold => Bool.eq_false_iff.mp hclosed hhold.1
  refine .of_resting (not_holding (show RTTST_TMBENCH_INVALID < 0 by decide)) (h.resting hrest)
    h.freed_once h.freed_allocated h.not_misused fun hsize => ?_
  obtain ⟨hstrays, htask, htimer⟩ := h.runs hsize
  refine ⟨?_, ?_, hstrays⟩
  · exact Bool.eq_false_iff.mpr fun hruns => hrest (htask hruns).1
  · exact Bool.eq_false_iff.mpr fun hruns => hrest (htimer hruns).1

theorem owns_invariant (w : Nat) : (device w).InvariantBy (Orderly w) (Owns w) := by
  intro d hd
  refine hd.induct ?_ ?_
  · rintro d ⟨hclosed, htask, htimer, hstrays, hblocks, hfreed, hmisused⟩
    have hrest : ¬ d.Holding := fun hhold => Bool.eq_false_iff.mp hclosed hhold.1
    refine .of_resting hrest ?_ ?_ ?_ hmisused fun _ => ⟨htask, htimer, hstrays⟩
    · intro b hb
      rw [hblocks] at hb
      exact absurd hb (Nat.not_lt_zero b)
    · rw [hfreed]
      exact List.nodup_nil
    · intro b hb
      rw [hfreed] at hb
      cases hb
  · intro d d' r h hok hstep
    change serve w d r = some d' at hstep
    cases r with
    | opens =>
        simp only [serve] at hstep
        split at hstep
        · cases hstep
        · rename_i hclosed
          cases hstep
          exact h.opens (Bool.eq_false_iff.mpr hclosed)
    | start config o =>
        simp only [serve] at hstep
        split at hstep
        · rename_i hopened
          cases hstep
          exact h.start hopened hok
        · cases hstep
    | stop copy_err copied =>
        simp only [serve] at hstep
        split at hstep
        · rename_i hopened
          cases hstep
          exact h.stop hopened copy_err copied
        · cases hstep
    | close =>
        simp only [serve] at hstep
        split at hstep
        · rename_i hopened
          cases hstep
          exact h.close hopened hok
        · cases hstep
    | eval =>
        simp only [serve] at hstep
        split at hstep
        · rename_i hruns
          cases hstep
          exact h.eval hruns hok
        · cases hstep

/-- In every orderly run. -/
theorem buffers_owned (w : Nat) (d : Device) (hd : (device w).ReachableBy (Orderly w) d) :
    Buffered d := by
  have h := owns_invariant w d hd
  refine ⟨⟨h.freed_once, h.freed_allocated⟩, h.not_misused, fun hclosed => h.resting ?_⟩
  exact fun hhold => Bool.eq_false_iff.mp hclosed hhold.1

/-- A context with empty fields. -/
def blankDevice : Device :=
  { opened := false
    mode := 0
    histogram_size := 0
    histogram_min := none
    task := false
    timer := false
    strays := 0
    blocks := []
    freed := []
    misused := false }

theorem blankDevice_init (w : Nat) : (device w).init blankDevice :=
  ⟨rfl, rfl, rfl, rfl, rfl, rfl, rfl⟩

/-- A start of the task with `size` cells. -/
def taskStart (size : Int) (task_err : Int) : Request :=
  .start
    { mode := 0
      period := 100000
      warmup_loops := 1
      histogram_size := size
      histogram_bucketsize := 1000 }
    { copied := true, kmalloc := true, closing := false, task_err := task_err, timer_err := 0 }

/-- A benchmark, one without histograms that is started twice, one with a negative size
that is stopped at once, and a last one that is ended by the close. -/
theorem buffers_owned_twice : ∃ d, (device 64).ReachableBy (Orderly 64) d ∧
    (d.opened = false ∧ d.blocks = [2400, 24]) ∧ Buffered d := by
  have hrun : (device 64).leadsBy (Orderly 64)
      (fun d => d.opened == false && d.blocks == [2400, 24]) blankDevice
      [.opens, taskStart 100 0, .eval, .stop 0 true, taskStart (-1) 0, .stop 0 true,
        taskStart 1 0, .eval, .stop 0 true, taskStart 0 0, taskStart 0 0, .eval, .close, .eval] =
      true := by
    decide
  obtain ⟨d, hd, hask⟩ := TSys.ReachableBy.of_leadsBy (.init (blankDevice_init 64)) hrun
  rw [Bool.and_eq_true_iff, beq_iff_eq, beq_iff_eq] at hask
  exact ⟨d, hd, hask, buffers_owned 64 d hd⟩

/-- A second free of the buffer of the first benchmark, an evaluation that counts
in it after it has been freed, a buffer whose task could not be made, and an evaluation
that counts in a block of eight bytes. -/
theorem buffers_lost :
    ¬ (device 64).Invariant (fun d => d.freed.Nodup) ∧
      ¬ (device 64).Invariant (fun d => d.misused = false) ∧
      ¬ (device 64).Invariant (fun d => d.opened = false → ∀ b, b < d.blocks.length → b ∈ d.freed) ∧
      ¬ ∀ d, (device 32).Reachable d → d.freed = [] → d.misused = false := by
  refine ⟨?_, ?_, ?_, ?_⟩
  · intro hall
    have hrun : (device 64).leadsTo blankDevice
        [.opens, taskStart 100 0, .stop 0 true, taskStart (-1) 0, .close]
        (fun d => decide ¬ d.freed.Nodup) = true := by decide
    obtain ⟨d, hd, hask⟩ := TSys.Reachable.of_leadsTo (blankDevice_init 64) hrun
    exact of_decide_eq_true hask (hall d hd)
  · intro hall
    have hrun : (device 64).leadsTo blankDevice
        [.opens, taskStart 100 0, .stop 0 true, taskStart (-1) 0, .eval] (·.misused) = true := by
      decide
    obtain ⟨d, hd, hask⟩ := TSys.Reachable.of_leadsTo (blankDevice_init 64) hrun
    rw [hall d hd] at hask
    cases hask
  · intro hall
    have hrun : (device 64).leadsTo blankDevice [.opens, taskStart 100 (-12), .close]
        (fun d => d.opened == false && decide (0 < d.blocks.length ∧ 0 ∉ d.freed)) = true := by
      decide
    obtain ⟨d, hd, hask⟩ := TSys.Reachable.of_leadsTo (blankDevice_init 64) hrun
    rw [Bool.and_eq_true_iff, beq_iff_eq] at hask
    obtain ⟨hlt, hnot⟩ := of_decide_eq_true hask.2
    exact hnot (hall d hd hask.1 0 hlt)
  · intro hall
    have hrun : (device 32).leadsTo blankDevice [.opens, taskStart 357913942 0, .eval]
        (fun d => d.freed == [] && d.misused) = true := by decide
    obtain ⟨d, hd, hask⟩ := TSys.Reachable.of_leadsTo (blankDevice_init 32) hrun
    rw [Bool.and_eq_true_iff, beq_iff_eq] at hask
    rw [hall d hd hask.1] at hask
    cases hask.2

end RtaiDemos.Timerbench
