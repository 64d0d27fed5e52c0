import Mathlib.Data.List.Infix
import RtaiDemos.Sysvmsg.Logic.Segments

/-!
# What is loaded is what is stored

`load_msg` cuts the text of a message into the pieces that its blocks hold, and
`store_msg` puts as many bytes together again as it is asked for. The two loops
compute the length of the same piece in different places; here it is said once,
in `pieces`.
-/

namespace RtaiDemos.Sysvmsg.Segments

/-- The text of the segments. -/
def pieces (d : Nat) (src : List UInt8) : List (List UInt8) :=
  if src = [] ∨ d = 0 then [] else src.take d :: pieces d (src.drop d)
termination_by src.length
decreasing_by
  rename_i h
  rw [not_or, ← List.length_eq_zero_iff] at h
  rw [List.length_drop]
  omega

theorem pieces_nil (d : Nat) : pieces d [] = [] := by
  rw [pieces, if_pos (.inl rfl)]

theorem pieces_of_ne_nil {d : Nat} (hd : 0 < d) {src : List UInt8} (h : src ≠ []) :
    pieces d src = src.take d :: pieces d (src.drop d) := by
  rw [pieces, if_neg (by simp [h]; omega)]

/-- What goes wrong at a block. -/
def failure (space : Bool) (env : BlockEnv) : Option Errno :=
  if !env.kmalloc then some .ENOMEM else if space && !env.copy then some .EFAULT else none

/-- How `load_msg` ends once it has the chain `l` and is to load the texts `ts`: with a
chain of all of them, or with the first error that occurs at one of them. -/
def Ends (space : Bool) (o : Nat → BlockEnv) (m₀ : Memory) (l : List (Nat × List UInt8))
    (ts : List (List UInt8)) : Except Errno Nat × Memory → Prop
  | (.ok msg, m) => msg = m₀.next ∧ (∀ i < ts.length, failure space (o (l.length + i)) = none) ∧
      ∃ new, Building m₀ m (l ++ new) ∧ new.map Prod.snd = ts
  | (.error err, m) => Released m₀ m ∧
      ∃ k < ts.length, failure space (o (l.length + k)) = some err ∧
        (∀ i < k, failure space (o (l.length + i)) = none) ∧
        m.next = m₀.next + l.length + k + if err = .ENOMEM then 0 else 1

/-- The length of the next piece. -/
theorem next_piece (d : Nat) (src : List UInt8) :
    let alen := if src.length > d then d else src.length
    src.take alen = src.take d ∧ src.drop alen = src.drop d ∧
      src.length - alen = (src.drop d).length := by
  intro alen
  by_cases h : src.length > d
  · rw [show alen = d from if_pos h, List.length_drop]
    exact ⟨rfl, rfl, rfl⟩
  · have halen : alen = src.length := if_neg h
    rw [halen, List.take_of_length_le (Nat.le_refl _), List.take_of_length_le (by omega),
      List.drop_of_length_le (Nat.le_refl _), List.drop_of_length_le (by omega), Nat.sub_self]
    exact ⟨rfl, rfl, rfl⟩

/-- One round: the first text is on the chain. -/
theorem Ends.round {space : Bool} {o : Nat → BlockEnv} {m₀ : Memory}
    {l : List (Nat × List UInt8)} {b : Nat} {t : List UInt8} {ts : List (List UInt8)}
    (hgood : failure space (o l.length) = none) {r : Except Errno Nat × Memory}
    (h : Ends space o m₀ (l ++ [(b, t)]) ts r) : Ends space o m₀ l (t :: ts) r := by
  have hshift : ∀ i, (l ++ [(b, t)]).length + i = l.length + (i + 1) := by
    intro i
    rw [List.length_append, List.length_singleton]
    omega
  have hall : ∀ k, (∀ i < k, failure space (o (l.length + (i + 1))) = none) →
      ∀ i < k + 1, failure space (o (l.length + i)) = none := by
    intro k hk i hi
    cases i with
    | zero => exact hgood
    | succ i => exact hk i (by omega)
  obtain ⟨res, m⟩ := r
  cases res with
  | ok msg =>
      obtain ⟨hmsg, hnone, new, hbuilt, hnew⟩ := h
      simp only [hshift] at hnone
      rw [List.append_assoc] at hbuilt
      exact ⟨hmsg, hall _ hnone, (b, t) :: new, hbuilt, by rw [List.map_cons, hnew]⟩
  | error err =>
      obtain ⟨hreleased, k, hk, hbad, hnone, hnext⟩ := h
      simp only [hshift] at hbad hnone
      refine ⟨hreleased, k + 1, by rw [List.length_cons]; omega, hbad, hall _ hnone, ?_⟩
      rw [hnext, List.length_append, List.length_singleton]
      omega

/-- One round: the first text fails. -/
theorem Ends.fail {space : Bool} {o : Nat → BlockEnv} {m₀ m : Memory}
    {l : List (Nat × List UInt8)} {t : List UInt8} {ts : List (List UInt8)} {err : Errno}
    (hbad : failure space (o l.length) = some err) (hreleased : Released m₀ m)
    (hnext : m.next = m₀.next + l.length + if err = .ENOMEM then 0 else 1) :
    Ends space o m₀ l (t :: ts) (.error err, m) :=
  ⟨hreleased, 0, Nat.succ_pos _, hbad, fun _ hi => absurd hi (Nat.not_lt_zero _), hnext⟩

section BlockByBlock

variable {L : Layout} {space : Bool} {o : Nat → BlockEnv} {len : Nat} {msg : List Nat} {h : Heap}

/-- The load block by block, at a block that is not to be had. -/
theorem blocks_nomem (hlen : len ≠ 0) (hk : (o msg.length).kmalloc = false) :
    Sysvmsg.loadSegs L space o len msg h = (.error .ENOMEM, Sysvmsg.free_msg h msg) := by
  rw [Sysvmsg.loadSegs, if_neg hlen]
  dsimp only
  rw [hk]
  rfl

/-- At a block whose text cannot be copied. -/
theorem blocks_fault (hlen : len ≠ 0) (hk : (o msg.length).kmalloc = true)
    (hcopy : (space && !(o msg.length).copy) = true) :
    Sysvmsg.loadSegs L space o len msg h =
      (.error .EFAULT, Sysvmsg.free_msg ⟨h.next + 1, h.freed⟩ (msg ++ [h.next])) := by
  rw [Sysvmsg.loadSegs, if_neg hlen]
  dsimp only
  rw [hk, if_pos hcopy]
  rfl

/-- At any other. -/
theorem blocks_next (hlen : len ≠ 0) (hk : (o msg.length).kmalloc = true)
    (hcopy : ¬ (space && !(o msg.length).copy) = true) :
    Sysvmsg.loadSegs L space o len msg h =
      Sysvmsg.loadSegs L space o (len - if len > L.DATALEN_SEG then L.DATALEN_SEG else len)
        (msg ++ [h.next]) ⟨h.next + 1, h.freed⟩ := by
  rw [Sysvmsg.loadSegs, if_neg hlen]
  dsimp only
  rw [hk, if_neg hcopy]
  rfl

end BlockByBlock

/-- What the load block by block sees of the end of a load that began in `m₀`. -/
def view (m₀ : Memory) : Except Errno Nat × Memory → Except Errno (List Nat) × Heap
  | (.ok _, m) => (.ok (List.range' m₀.next (m.next - m₀.next)), m.heap)
  | (.error err, m) => (.error err, m.heap)

theorem loadSegs_ends (L : Layout) (space : Bool) (o : Nat → BlockEnv) {m₀ m : Memory}
    {l₀ : List (Nat × List UInt8)} {a : Nat} {v : List UInt8}
    (h : Building m₀ m (l₀ ++ [(a, v)])) (src : List UInt8) :
    ∃ r, loadSegs L space o m₀.next a src src.length (l₀ ++ [(a, v)]).length m = some r ∧
      Ends space o m₀ (l₀ ++ [(a, v)]) (pieces L.DATALEN_SEG src) r ∧
      Sysvmsg.loadSegs L space o src.length ((l₀ ++ [(a, v)]).map Prod.fst) m.heap = view m₀ r := by
  generalize hlen : src.length = len
  induction len using Nat.strong_induction_on generalizing m l₀ a v src with
  | _ len ih =>
      have hroom := L.room
      have hnext := h.next
      have haddrs := h.addrs
      obtain ⟨htake, hdrop, hrest⟩ := next_piece L.DATALEN_SEG src
      subst hlen
      rw [loadSegs]
      by_cases hsrc : src = []
      · subst hsrc
        rw [pieces_nil]
        refine ⟨_, if_pos rfl, ⟨rfl, nofun, [], ?_, rfl⟩, ?_⟩
        · rw [List.append_nil]
          exact h
        · rw [Sysvmsg.loadSegs, List.length_nil, if_pos rfl, haddrs, view, hnext,
            Nat.add_sub_cancel_left]
      · have hlen : src.length ≠ 0 := fun h => hsrc (List.length_eq_zero_iff.mp h)
        have hcount : ((l₀ ++ [(a, v)]).map Prod.fst).length = (l₀ ++ [(a, v)]).length :=
          List.length_map _
        rw [pieces_of_ne_nil hroom hsrc, if_neg hlen]
        dsimp only
        rw [htake, hdrop, hrest]
        cases hk : (o (l₀ ++ [(a, v)]).length).kmalloc with
        | false =>
            obtain ⟨m', herr, hnext', hreleased, hheap⟩ := h.release .ENOMEM
            refine ⟨_, herr, .fail ?_ hreleased (hnext'.trans hnext), ?_⟩
            · rw [failure, hk]
              rfl
            · rw [blocks_nomem hlen (by rw [hcount]; exact hk), view, hheap]
        | true =>
            obtain ⟨m', hlink, hnext', hbuilt⟩ :=
              h.link (if src.length > L.DATALEN_SEG then L.DATALEN_SEG else src.length)
            have hheap : ⟨m.heap.next + 1, m.heap.freed⟩ = m'.heap :=
              heap_ext hnext'.symm (h.freed.trans hbuilt.freed.symm)
            have hmap : ∀ t : List UInt8, (l₀ ++ [(a, v)] ++ [(m.next, t)]).map Prod.fst =
                (l₀ ++ [(a, v)]).map Prod.fst ++ [m.heap.next] := fun t => List.map_append
            rw [if_neg (show ¬ (!true) = true by decide)]
            simp only [kmalloc_fst]
            rw [← Option.bind_assoc, hlink, Option.bind_some]
            by_cases hcopy : (space && !(o (l₀ ++ [(a, v)]).length).copy) = true
            · obtain ⟨m'', herr, hnext'', hreleased, hheap'⟩ := hbuilt.release .EFAULT
              rw [if_pos hcopy, blocks_fault hlen (by rw [hcount]; exact hk)
                (by rw [hcount]; exact hcopy), hheap]
              refine ⟨_, herr, .fail ?_ hreleased ?_, ?_⟩
              · rw [failure, hk, if_neg (by decide), if_pos hcopy]
              · rw [hnext'', hnext', hnext]
                rfl
              · rw [view, hheap', hmap]
            · obtain ⟨m'', hwrite, hnext'', hwritten⟩ := hbuilt.write (src.take L.DATALEN_SEG)
              have hheap' : m'.heap = m''.heap :=
                heap_ext hnext''.symm (hbuilt.freed.trans hwritten.freed.symm)
              obtain ⟨r, hr, hends, hview⟩ := ih (src.drop L.DATALEN_SEG).length
                (by rw [List.length_drop]; omega) hwritten (src.drop L.DATALEN_SEG) rfl
              rw [List.length_append, List.length_singleton] at hr
              rw [if_neg hcopy, hwrite, Option.bind_some, blocks_next hlen
                (by rw [hcount]; exact hk) (by rw [hcount]; exact hcopy), hheap, hheap', hrest]
              refine ⟨r, hr, hends.round ?_, ?_⟩
              · rw [failure, hk, if_neg (by decide), if_neg hcopy]
              · rw [← hmap]
                exact hview

/-- The text of all blocks of a message. -/
def texts (L : Layout) (src : List UInt8) : List (List UInt8) :=
  src.take L.DATALEN_MSG :: pieces L.DATALEN_SEG (src.drop L.DATALEN_MSG)

/-- `load_msg` comes to an end, without a wrong access, and the load block by block
is what it looks like from outside. -/
theorem load_msg_ends (L : Layout) (space : Bool) (o : Nat → BlockEnv) (src : List UInt8)
    (m₀ : Memory) :
    ∃ r, load_msg L space o src src.length m₀ = some r ∧ Ends space o m₀ [] (texts L src) r ∧
      Sysvmsg.load_msg L space o src.length m₀.heap = view m₀ r := by
  obtain ⟨htake, hdrop, hrest⟩ := next_piece L.DATALEN_MSG src
  rw [load_msg, Sysvmsg.load_msg]
  dsimp only
  rw [htake, hdrop, hrest]
  cases hk : (o 0).kmalloc with
  | false =>
      refine ⟨_, rfl, .fail ?_ ?_ rfl, rfl⟩
      · rw [List.length_nil, failure, hk]
        rfl
      · refine ⟨Nat.le_refl _, ?_, fun _ _ => rfl, fun x hlo hhi => absurd hlo (by omega)⟩
        rw [Nat.sub_self]
        exact (List.append_nil _).symm
  | true =>
      obtain ⟨m, hfirst, hnext, hbuilt⟩ := Building.first m₀
        (if src.length > L.DATALEN_MSG then L.DATALEN_MSG else src.length)
      have hheap : ⟨m₀.heap.next + 1, m₀.heap.freed⟩ = m.heap :=
        heap_ext hnext.symm hbuilt.freed.symm
      rw [if_neg (show ¬ (!true) = true by decide), if_neg (show ¬ (!true) = true by decide), hheap]
      simp only [kmalloc_fst]
      rw [hfirst, Option.bind_some]
      by_cases hcopy : (space && !(o 0).copy) = true
      · obtain ⟨m', herr, hnext', hreleased, hheap'⟩ := hbuilt.release .EFAULT
        rw [if_pos hcopy, if_pos hcopy]
        refine ⟨_, herr, .fail ?_ hreleased ?_, ?_⟩
        · rw [List.length_nil, failure, hk, if_neg (by decide), if_pos hcopy]
        · rw [hnext', hnext]
          rfl
        · rw [view, hheap']
          rfl
      · obtain ⟨m', hwrite, hnext', hwritten⟩ := hbuilt.write (src.take L.DATALEN_MSG)
        have hheap' : m.heap = m'.heap :=
          heap_ext hnext'.symm (hbuilt.freed.trans hwritten.freed.symm)
        obtain ⟨r, hr, hends, hview⟩ := loadSegs_ends L space o hwritten (src.drop L.DATALEN_MSG)
        rw [if_neg hcopy, if_neg hcopy, hwrite, Option.bind_some, hheap']
        refine ⟨r, hr, hends.round ?_, hview⟩
        rw [List.length_nil, failure, hk, if_neg (by decide), if_neg hcopy]

/-- The load block by block is refined by this one. -/
theorem load_msg_view {L : Layout} {space : Bool} {o : Nat → BlockEnv} {src : List UInt8}
    {m₀ : Memory} {r : Except Errno Nat × Memory}
    (h : load_msg L space o src src.length m₀ = some r) :
    Sysvmsg.load_msg L space o src.length m₀.heap = view m₀ r := by
  obtain ⟨r', hload, _, hview⟩ := load_msg_ends L space o src m₀
  rw [h] at hload
  rw [Option.some.inj hload, hview]

/-! ## Storing -/

/-- `store_msg` has put `text` behind `dest`; or a copy has failed, and it gave up with
a part of it. -/
def Stored (space : Bool) (copy : Nat → Bool) (dest text : List UInt8) (r : Int × List UInt8) :
    Prop :=
  r = (0, dest ++ text) ∨
    space = true ∧ (∃ n, copy n = false) ∧ ∃ k, r = (-1, dest ++ text.take k)

/-- Behind a first part that was stored. -/
theorem Stored.after {space : Bool} {copy : Nat → Bool} {dest head tail : List UInt8}
    {r : Int × List UInt8} (h : Stored space copy (dest ++ head) tail r) :
    Stored space copy dest (head ++ tail) r := by
  rcases h with rfl | ⟨hspace, hcopy, k, rfl⟩
  · exact .inl (by rw [List.append_assoc])
  · refine .inr ⟨hspace, hcopy, head.length + k, ?_⟩
    rw [List.take_length_add_append, List.append_assoc]

/-- A block that holds the next `d` bytes has what is asked for of them. -/
theorem read_piece (d : Nat) (next : Option Nat) {src : List UInt8} {n : Nat}
    (hn : n ≤ src.length) :
    let alen := if n > d then d else n
    Block.read ⟨next, src.take d⟩ alen = some (src.take alen) ∧
      n - alen ≤ (src.drop d).length ∧
      src.take alen ++ (src.drop d).take (n - alen) = src.take n := by
  intro alen
  by_cases h : n > d
  · have halen : alen = d := if_pos h
    rw [halen, Block.read, List.take_take, Nat.min_self, List.length_take, List.length_drop,
      if_pos (by omega)]
    refine ⟨rfl, by omega, ?_⟩
    conv_rhs => rw [show n = d + (n - d) by omega, List.take_add]
  · have halen : alen = n := if_neg h
    rw [halen, Block.read, List.take_take, Nat.min_eq_left (by omega), List.length_take,
      if_pos (by omega), Nat.sub_self, List.take_zero, List.append_nil]
    exact ⟨rfl, Nat.zero_le _, rfl⟩

/-- The loop finds in every segment what it is to copy from it, and none is missing. -/
theorem storeSegs_stores (L : Layout) (space : Bool) (copy : Nat → Bool) {m : Memory}
    {p : Option Nat} {l : List (Nat × List UInt8)} {src : List UInt8} (hchain : Chain m.node p l none)
    (htexts : l.map Prod.snd = pieces L.DATALEN_SEG src) {n : Nat} (hn : n ≤ src.length) (k : Nat)
    (dest : List UInt8) :
    ∃ r, storeSegs L space copy m p n k dest = some r ∧ Stored space copy dest (src.take n) r := by
  induction l generalizing p src n k dest with
  | nil =>
      have hsrc : src = [] := by
        by_contra hsrc
        rw [pieces_of_ne_nil L.room hsrc] at htexts
        cases htexts
      subst hsrc
      obtain rfl : n = 0 := Nat.le_zero.mp hn
      rw [storeSegs, if_pos rfl]
      exact ⟨_, rfl, .inl (by rw [List.take_zero, List.append_nil])⟩
  | cons x l ih =>
      obtain _ | ⟨hnode, hrest⟩ := hchain
      rename_i a t next
      rw [storeSegs]
      by_cases hzero : n = 0
      · subst hzero
        rw [if_pos rfl]
        exact ⟨_, rfl, .inl (by rw [List.take_zero, List.append_nil])⟩
      · have hsrc : src ≠ [] := by
          intro hsrc
          rw [hsrc] at hn
          exact hzero (Nat.le_zero.mp hn)
        rw [pieces_of_ne_nil L.room hsrc, List.map_cons, List.cons.injEq] at htexts
        obtain ⟨rfl, htexts⟩ := htexts
        obtain ⟨hread, hleft, htake⟩ := read_piece L.DATALEN_SEG next hn
        rw [if_neg hzero]
        dsimp only
        rw [Option.bind_some, node_eq_some.mp hnode, Option.bind_some]
        by_cases hcopy : (space && !copy k) = true
        · rw [if_pos hcopy]
          rw [Bool.and_eq_true_iff, Bool.not_eq_true'] at hcopy
          refine ⟨_, rfl, .inr ⟨hcopy.1, ⟨k, hcopy.2⟩, 0, ?_⟩⟩
          rw [List.take_zero, List.append_nil]
        · rw [if_neg hcopy, hread, Option.bind_some]
          obtain ⟨r, hr, hstored⟩ := ih hrest htexts hleft (k + 1)
            (dest ++ src.take (if n > L.DATALEN_SEG then L.DATALEN_SEG else n))
          refine ⟨r, hr, ?_⟩
          rw [← htake]
          exact hstored.after

/-- `store_msg` of a chain that holds `src`. -/
theorem store_msg_stores (L : Layout) (space : Bool) (copy : Nat → Bool) {m : Memory} {msg : Nat}
    {l : List (Nat × List UInt8)} {src : List UInt8} (hchain : Chain m.node (some msg) l none)
    (htexts : l.map Prod.snd = texts L src) {n : Nat} (hn : n ≤ src.length) :
    ∃ r, store_msg L space copy m msg n = some r ∧ Stored space copy [] (src.take n) r := by
  obtain _ | ⟨hnode, hrest⟩ := hchain
  rename_i t next l
  rw [texts, List.map_cons, List.cons.injEq] at htexts
  obtain ⟨rfl, htexts⟩ := htexts
  obtain ⟨hread, hleft, htake⟩ := read_piece L.DATALEN_MSG next hn
  rw [store_msg, node_eq_some.mp hnode, Option.bind_some]
  by_cases hcopy : (space && !copy 0) = true
  · rw [if_pos hcopy]
    rw [Bool.and_eq_true_iff, Bool.not_eq_true'] at hcopy
    exact ⟨_, rfl, .inr ⟨hcopy.1, ⟨0, hcopy.2⟩, 0, rfl⟩⟩
  · rw [if_neg hcopy, hread, Option.bind_some]
    obtain ⟨r, hr, hstored⟩ := storeSegs_stores L space copy hrest htexts hleft 1
      (src.take (if n > L.DATALEN_MSG then L.DATALEN_MSG else n))
    refine ⟨r, hr, ?_⟩
    rw [← htake]
    refine Stored.after ?_
    exact hstored

/-- **What is loaded is what is stored.** Either `load_msg` has its blocks and copies,
and `store_msg` then writes the first `n` bytes of the text for any `n` of them, and
finds a block wherever it follows a pointer; or the first allocation or copy that fails
is the error that is returned, every block got before it has been freed once, and no
other block is touched. -/
theorem segments_round_trip (L : Layout) (space : Bool) (o : Nat → BlockEnv) (src : List UInt8)
    (m₀ : Memory) :
    (∃ msg m, load_msg L space o src src.length m₀ = some (.ok msg, m) ∧
      (∀ i < (texts L src).length, failure space (o i) = none) ∧
      ∀ n ≤ src.length, ∀ space' copy, ∃ r, store_msg L space' copy m msg n = some r ∧
        Stored space' copy [] (src.take n) r) ∨
    ∃ err m, load_msg L space o src src.length m₀ = some (.error err, m) ∧
      (∃ k < (texts L src).length, failure space (o k) = some err ∧
        (∀ i < k, failure space (o i) = none) ∧
        m.next = m₀.next + k + if err = .ENOMEM then 0 else 1) ∧
      Released m₀ m := by
  obtain ⟨⟨res, m⟩, hload, hends, _⟩ := load_msg_ends L space o src m₀
  cases res with
  | ok msg =>
      obtain ⟨rfl, hnone, l, hbuilt, htexts⟩ := hends
      simp only [List.length_nil, Nat.zero_add] at hnone
      refine .inl ⟨_, m, hload, hnone, ?_⟩
      intro n hn space' copy
      exact store_msg_stores L space' copy hbuilt.chain htexts hn
  | error err =>
      obtain ⟨hreleased, k, hk, hbad, hnone, hnext⟩ := hends
      simp only [List.length_nil, Nat.zero_add, Nat.add_zero] at hbad hnone hnext
      exact .inr ⟨err, m, hload, ⟨k, hk, hbad, hnone, hnext⟩, hreleased⟩

end RtaiDemos.Sysvmsg.Segments
