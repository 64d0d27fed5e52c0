import RtaiDemos.Sysvmsg.Logic.TestMsgThreads
import RtaiDemos.Sysvmsg.Theorems.Linearizable

/-!
# The test program on the message module

The invariant is kept for calls that take effect at once, which is all that the
program can tell of the module, as the module is linearizable.
-/

namespace RtaiDemos.Sysvmsg.TestMsg

/-! ## The boxes and the main program -/

/-- What holds of the boxes; `a` is where `main` is. -/
structure BoxesOk (N : Names) (ids : List Int) (e : Int) (B : Boxes) (a : Place) : Prop where
  kinds : ∀ j, ∀ m ∈ boxAt ids B j, Kind e j m
  distinct : Distinct ids
  known : ∀ id b, B id = some b → (∃ j, ids[j]? = some (id : Int) ∧ b.key = N.key j) ∨
    ∃ c, a = some (c, some (.create id b.key))
  created : ∀ c id key, a = some (c, some (.create id key)) →
    B id = some ⟨key, []⟩ ∧ (id : Int) ∉ ids

/-- The threads that `main` has started, counting the server first. -/
def MainPc.started : MainPc → Nat
  | .create => 0
  | .spawn i => i
  | _ => NTASKS + 1

/-- What the place of `main` says of `end` and of the threads that are done. -/
def Phase (e : Int) (clients : Nat → Prop) (server : Prop) : MainPc → Prop
  | .create | .getchar => e = -1
  | .spawn i => e = -1 ∧ i ≤ NTASKS
  | .game i => e + 1 = i ∧ i ≤ NTASKS ∧ ∀ j < i, clients j
  | .tell i | .join i => e = i ∧ i ≤ NTASKS ∧ ∀ j < i, clients j
  | .rmid i => e = NTASKS ∧ i ≤ NTASKS ∧ (∀ j < NTASKS, clients j) ∧ server
  | .done => e = NTASKS

theorem Phase.mono {e : Int} {clients clients' : Nat → Prop} {server server' : Prop} {pc : MainPc}
    (h : Phase e clients server pc) (hc : ∀ j, clients j → clients' j) (hs : server → server') :
    Phase e clients' server' pc := by
  cases pc with
  | create | getchar | spawn i | done => exact h
  | game i | tell i | join i => exact ⟨h.1, h.2.1, fun j hj => hc j (h.2.2 j hj)⟩
  | rmid i => exact ⟨h.1, h.2.1, fun j hj => hc j (h.2.2.1 j hj), hs h.2.2.2⟩

/-- What holds of `main`. -/
structure MainOk (N : Names) (P : Params) (k : Game) (B : Boxes) (a : Place) : Prop where
  stands : Stands P (k.main.call N) k.main.inside a
  creating : k.main.pc = .create → k.main.ids.length ≤ NTASKS
  created : k.main.pc ≠ .create → k.main.ids.length = NTASKS + 1
  live : k.main.pc = .create → ∀ id : Nat, (id : Int) ∈ k.main.ids → (B id).isSome
  clients : ∀ t < NTASKS, k.main.pc.started ≤ t + 1 → (k.mfun t).pc = .unborn
  server : k.main.pc.started = 0 → k.bfun.pc = .unborn
  phase : Phase k.end_ (fun j => (k.mfun j).pc = .done) (k.bfun.pc = .done) k.main.pc

/-- The invariant. -/
structure Inv (N : Names) (P : Params) (k : Game) (B : Boxes) (at_ : Tid → Place) : Prop where
  clients : ∀ t < NTASKS, ClientOk N P k.main.ids k.end_ t (k.mfun t) (at_ t)
  server : ServerOk N P k.main.ids k.end_ k.bfun (at_ NTASKS)
  main : MainOk N P k B (at_ (NTASKS + 1))
  boxes : BoxesOk N k.main.ids k.end_ B (at_ (NTASKS + 1))
  tokens : ∀ t < NTASKS, Tokens t (k.mfun t) (at_ t) k.bfun (at_ NTASKS)
    (boxAt k.main.ids B 0) (boxAt k.main.ids B (t + 1))
  others : ∀ u, NTASKS + 1 < u → at_ u = none

variable {N : Names} {P : Params} {ids : List Int} {e : Int} {B B' : Boxes} {k k' : Game}
  {at_ : Tid → Place} {a : Place} {u t : Nat} {c : Call} {op : BoxOp} {o : Option BoxOp} {r : Ret}

theorem BoxesOk.find (h : BoxesOk N ids e B a)
    (hnew : ∀ c id key, a ≠ some (c, some (.create id key)))
    {id : Nat} {key : Int} (hs : Boxes.next B (.find id key) = some B') :
    B' = B ∧ ∃ j, ids[j]? = some (id : Int) ∧ key = N.key j := by
  obtain ⟨b, hb, hif⟩ := Option.bind_eq_some_iff.mp hs
  split at hif
  · rename_i hkey
    cases hif
    obtain ⟨j, hj, hkey'⟩ | ⟨c, ha⟩ := h.known id b hb
    · exact ⟨rfl, j, hj, hkey.symm.trans hkey'⟩
    · exact absurd ha (hnew _ _ _)
  · cases hif

/-- A message is put in the queue `j`. -/
theorem BoxesOk.send (h : BoxesOk N ids e B a)
    (hnew : ∀ c id key, a ≠ some (c, some (.create id key)))
    {id j : Nat} {m : Msg} (hj : ids[j]? = some (id : Int)) (hm : Kind e j m)
    (hs : Boxes.next B (.send id m) = some B') :
    BoxesOk N ids e B' a ∧
      ∀ i, boxAt ids B' i = if i = j then boxAt ids B j ++ [m] else boxAt ids B i := by
  obtain ⟨b, hb, rfl⟩ := Option.map_eq_some_iff.mp hs
  have hold := boxAt_eq hj hb
  rw [hold]
  have hat : ∀ i, boxAt ids
      (Function.update B id (some { b with messages := b.messages ++ [m] })) i =
        if i = j then b.messages ++ [m] else boxAt ids B i := boxAt_update h.distinct hj
  refine ⟨⟨?_, h.distinct, ?_, fun c id key ha => absurd ha (hnew c id key)⟩, hat⟩
  · intro i m' hm'
    rw [hat i] at hm'
    split at hm'
    · rename_i hij
      subst hij
      rcases List.mem_append.mp hm' with hmem | hlast
      · exact h.kinds i m' (hold ▸ hmem)
      · rw [List.mem_singleton.mp hlast]
        exact hm
    · exact h.kinds i m' hm'
  · intro id' b' hb'
    by_cases hid : id' = id
    · subst hid
      rw [Function.update_self] at hb'
      cases hb'
      exact h.known id' b hb
    · rw [Function.update_of_ne hid] at hb'
      exact h.known id' b' hb'

/-- A message is taken from the queue `j`. -/
theorem BoxesOk.recv (h : BoxesOk N ids e B a)
    (hnew : ∀ c id key, a ≠ some (c, some (.create id key)))
    {id j : Nat} {mode : SearchMode} {type : Int} {m : Msg} (hj : ids[j]? = some (id : Int))
    (hs : Boxes.next B (.recv id mode type m) = some B') :
    m ∈ boxAt ids B j ∧ BoxesOk N ids e B' a ∧
      ∀ i, boxAt ids B' i = if i = j then (boxAt ids B j).erase m else boxAt ids B i := by
  obtain ⟨b, hb, hif⟩ := Option.bind_eq_some_iff.mp hs
  split at hif
  · rename_i hscan
    cases hif
    have hold := boxAt_eq hj hb
    rw [hold]
    have hat : ∀ i, boxAt ids
        (Function.update B id (some { b with messages := b.messages.erase m })) i =
          if i = j then b.messages.erase m else boxAt ids B i := boxAt_update h.distinct hj
    refine ⟨scan_mem hscan, ⟨?_, h.distinct, ?_, fun c id key ha => absurd ha (hnew c id key)⟩, hat⟩
    · intro i m' hm'
      rw [hat i] at hm'
      split at hm'
      · rename_i hij
        subst hij
        exact h.kinds i m' (hold ▸ List.mem_of_mem_erase hm')
      · exact h.kinds i m' hm'
    · intro id' b' hb'
      by_cases hid : id' = id
      · subst hid
        rw [Function.update_self] at hb'
        cases hb'
        exact h.known id' b hb
      · rw [Function.update_of_ne hid] at hb'
        exact h.known id' b' hb'
  · cases hif

/-! ## The frame of a step -/

theorem Inv.length_le (h : Inv N P k B at_) : k.main.ids.length ≤ NTASKS + 1 := by
  by_cases hpc : k.main.pc = .create
  · have := h.main.creating hpc
    omega
  · exact (h.main.created hpc).le

/-- Once a thread has been started no queue is being created. -/
theorem Inv.born (h : Inv N P k B at_) (hpc : k.main.pc.started ≠ 0) :
    ∀ c id key, at_ (NTASKS + 1) ≠ some (c, some (.create id key)) := by
  intro c id key ha
  have hd := h.main.stands.does c _ ha
  have hcall : k.main.call N = some c := by
    cases hin : k.main.inside with
    | false =>
        rw [h.main.stands.out hin] at ha
        cases ha
    | true =>
        obtain ⟨c', o, hc, ha'⟩ := h.main.stands.within hin
        rw [ha] at ha'
        cases ha'
        exact hc
  unfold Main.call at hcall
  split at hcall
  · rename_i hc
    rw [hc] at hpc
    exact hpc rfl
  · cases hcall
    exact hd
  · cases hcall
    exact hd
  · cases hcall

theorem Inv.started_of_client (h : Inv N P k B at_) (ht : t < NTASKS)
    (hpc : (k.mfun t).pc ≠ .unborn) : t + 1 < k.main.pc.started := by
  by_contra hle
  exact hpc (h.main.clients t ht (by omega))

theorem Inv.started_of_server (h : Inv N P k B at_) (hpc : k.bfun.pc ≠ .unborn) :
    k.main.pc.started ≠ 0 :=
  fun h0 => hpc (h.main.server h0)

/-- No more messages of client `t` in SMSG and in its own queue. -/
def Fewer (ids : List Int) (B B' : Boxes) (t : Nat) : Prop :=
  (boxAt ids B' 0).countP (ofTask t) ≤ (boxAt ids B 0).countP (ofTask t) ∧
    (boxAt ids B' (t + 1)).countP (ofTask t) ≤ (boxAt ids B (t + 1)).countP (ofTask t)

theorem Fewer.refl (t : Nat) : Fewer ids B B t := ⟨le_rfl, le_rfl⟩

/-- The operations that leave `main` alone leave what holds of it. -/
theorem MainOk.boxes (h : MainOk N P k B a) (hpc : k.main.pc.started ≠ 0) : MainOk N P k B' a := by
  refine { h with live := ?_ }
  intro hc
  rw [hc] at hpc
  exact absurd rfl hpc

/-- A client moves, and messages that are not another's come and go. -/
theorem Inv.client (h : Inv N P k B at_) (ht : t < NTASKS) (hborn : (k.mfun t).pc ≠ .unborn)
    (hlive : (k.mfun t).pc ≠ .done) {x : Mfun}
    (hx : ClientOk N P k.main.ids k.end_ t x a)
    (htok : Tokens t x a k.bfun (at_ NTASKS) (boxAt k.main.ids B' 0) (boxAt k.main.ids B' (t + 1)))
    (hboxes : BoxesOk N k.main.ids k.end_ B' (at_ (NTASKS + 1)))
    (hcount : ∀ t' < NTASKS, t' ≠ t → Fewer k.main.ids B B' t') :
    Inv N P (k.setMfun t x) B' (Function.update at_ t a) := by
  have hserver : Function.update at_ t a NTASKS = at_ NTASKS :=
    Function.update_of_ne (Nat.ne_of_gt ht) ..
  have hmain : Function.update at_ t a (NTASKS + 1) = at_ (NTASKS + 1) :=
    Function.update_of_ne (Nat.ne_of_gt (Nat.lt_succ_of_lt ht)) ..
  have hother : ∀ {j : Nat}, j ≠ t → (k.setMfun t x).mfun j = k.mfun j :=
    fun hj => Function.update_of_ne hj ..
  have hpast := h.started_of_client ht hborn
  have hdone : ∀ j, (k.mfun j).pc = .done → ((k.setMfun t x).mfun j).pc = .done := by
    intro j hj
    rw [hother (fun he => hlive (he ▸ hj))]
    exact hj
  refine ⟨?_, ?_, ?_, ?_, ?_, ?_⟩
  · intro t' ht'
    by_cases htt : t' = t
    · subst htt
      rw [Function.update_self, show (k.setMfun t' x).mfun t' = x from Function.update_self ..]
      exact hx
    · rw [Function.update_of_ne htt, hother htt]
      exact h.clients t' ht'
  · rw [hserver]
    exact h.server
  · rw [hmain]
    have hkeep : MainOk N P k B' _ := h.main.boxes (Nat.ne_of_gt (by omega))
    refine { hkeep with clients := ?_, phase := ?_ }
    · intro t' ht' hle
      have htt : t' ≠ t := by
        intro he
        subst he
        have : k.main.pc.started ≤ t' + 1 := hle
        omega
      rw [hother htt]
      exact h.main.clients t' ht' hle
    · exact h.main.phase.mono hdone id
  · rw [hmain]
    exact hboxes
  · intro t' ht'
    rw [hserver]
    by_cases htt : t' = t
    · subst htt
      rw [Function.update_self, show (k.setMfun t' x).mfun t' = x from Function.update_self ..]
      exact htok
    · rw [Function.update_of_ne htt, hother htt]
      obtain ⟨hasked, hreplied⟩ := hcount t' ht' htt
      exact (h.tokens t' ht').congr hasked hreplied
  · intro u hu
    have hne : u ≠ t := by omega
    rw [Function.update_of_ne hne]
    exact h.others u hu

/-- The server moves, and messages come and go. -/
theorem Inv.bfun (h : Inv N P k B at_) (hborn : k.bfun.pc ≠ .unborn) (hlive : k.bfun.pc ≠ .done)
    {y : Bfun} (hy : ServerOk N P k.main.ids k.end_ y a)
    (htok : ∀ t < NTASKS, Tokens t (k.mfun t) (at_ t) y a (boxAt k.main.ids B' 0)
      (boxAt k.main.ids B' (t + 1)))
    (hboxes : BoxesOk N k.main.ids k.end_ B' (at_ (NTASKS + 1))) :
    Inv N P { k with bfun := y } B' (Function.update at_ NTASKS a) := by
  have hclient : ∀ {t}, t < NTASKS → Function.update at_ NTASKS a t = at_ t :=
    fun ht => Function.update_of_ne (Nat.ne_of_lt ht) ..
  have hmain : Function.update at_ NTASKS a (NTASKS + 1) = at_ (NTASKS + 1) :=
    Function.update_of_ne (Nat.succ_ne_self _) ..
  have hpast := h.started_of_server hborn
  refine ⟨?_, ?_, ?_, ?_, ?_, ?_⟩
  · intro t ht
    rw [hclient ht]
    exact h.clients t ht
  · rw [Function.update_self]
    exact hy
  · rw [hmain]
    have hkeep : MainOk N P k B' _ := h.main.boxes hpast
    exact
      { hkeep with
        server := fun h0 => absurd h0 hpast
        phase := h.main.phase.mono (fun _ hj => hj) fun hd => absurd hd hlive }
  · rw [hmain]
    exact hboxes
  · intro t ht
    rw [hclient ht, Function.update_self]
    exact htok t ht
  · intro u hu
    have hne : u ≠ NTASKS := by omega
    rw [Function.update_of_ne hne]
    exact h.others u hu

/-! ## Steps of the clients -/

/-- Where a thread is when its call has a name. -/
theorem client_at_call {x : Mfun} (hc : x.call N t = some c) :
    x.pc ≠ .unborn ∧ x.pc ≠ .done := by
  unfold Mfun.call at hc
  split at hc
  · rename_i hpc
    simp [hpc]
  · rename_i hpc
    simp [hpc]
  · rename_i hpc
    simp [hpc]
  · rename_i hpc
    simp [hpc]
  · cases hc

theorem server_at_call {y : Bfun} (hc : y.call N = some c) : y.pc ≠ .unborn ∧ y.pc ≠ .done := by
  unfold Bfun.call at hc
  split at hc
  · rename_i hpc
    simp [hpc]
  · rename_i hpc
    simp [hpc]
  · rename_i hpc
    simp [hpc]
  · rename_i hpc
    simp [hpc]
  · cases hc

/-- A thread in a call stands at it. -/
theorem Stands.call {call : Option Call} {inside : Bool} (h : Stands P call inside (some (c, o))) :
    call = some c ∧ inside = true := by
  cases hin : inside with
  | false => cases h.out hin
  | true =>
      obtain ⟨c', o', hc, ha⟩ := h.within hin
      cases ha
      exact ⟨hc, rfl⟩

/-- Messages of one client only. -/
theorem Fewer.send {j : Nat} {m : Msg}
    (hat : ∀ i, boxAt ids B' i = if i = j then boxAt ids B j ++ [m] else boxAt ids B i)
    (hm : ofTask t m = false) : Fewer ids B B' t := by
  have hcount : ∀ i, (boxAt ids B' i).countP (ofTask t) ≤ (boxAt ids B i).countP (ofTask t) := by
    intro i
    rw [hat i]
    split
    · rename_i hij
      subst hij
      rw [List.countP_append, List.countP_singleton, hm]
      simp
    · rfl
  exact ⟨hcount 0, hcount (t + 1)⟩

theorem Fewer.recv {j : Nat} {m : Msg}
    (hat : ∀ i, boxAt ids B' i = if i = j then (boxAt ids B j).erase m else boxAt ids B i) :
    Fewer ids B B' t := by
  have hcount : ∀ i, (boxAt ids B' i).countP (ofTask t) ≤ (boxAt ids B i).countP (ofTask t) := by
    intro i
    rw [hat i]
    split
    · rename_i hij
      subst hij
      exact List.erase_sublist.countP_le
    · rfl
  exact ⟨hcount 0, hcount (t + 1)⟩

/-- A client invokes its call. -/
theorem Inv.clientEnter (h : Inv N P k B at_) (ht : t < NTASKS) (hat : at_ t = none)
    (hin : (k.mfun t).inside = false) (hc : (k.mfun t).call N t = some c) :
    Inv N P (k.setMfun t (k.mfun t).enter) B (Function.update at_ t (some (c, none))) := by
  obtain ⟨hborn, hlive⟩ := client_at_call hc
  have htok := h.tokens t ht
  rw [hat] at htok
  exact h.client ht hborn hlive ((h.clients t ht).enter hin hc) (htok.enter hc) h.boxes
    fun t' _ _ => .refl t'

/-- The call of a client has its effect. -/
theorem Inv.clientOp (h : Inv N P k B at_) (ht : t < NTASKS) (hat : at_ t = some (c, none))
    (hd : Call.does P c op) (hs : Boxes.next B op = some B') :
    Inv N P k B' (Function.update at_ t (some (c, some op))) := by
  have hok := h.clients t ht
  have htok := h.tokens t ht
  rw [hat] at hok htok
  obtain ⟨hc, -⟩ := hok.stands.call
  obtain ⟨hborn, hlive⟩ := client_at_call hc
  have hstart := h.started_of_client ht hborn
  have hnew := h.born (by omega)
  have hself : k.setMfun t (k.mfun t) = k := by
    unfold Game.setMfun
    rw [Function.update_eq_self]
  rw [← hself]
  cases ClientOp.of_does ht hc hd with
  | @find id j hpc =>
      obtain ⟨rfl, hj⟩ := h.boxes.find hnew hs
      have hx := hok.op hd (fun id' key' he => by cases he; exact hj)
        (fun _ _ _ _ he => by cases he)
      exact h.client ht hborn hlive hx (htok.look rfl) h.boxes fun t' _ _ => .refl t'
  | @send id m hpc hid hsize htext =>
      obtain ⟨draws, hdraws, hmsg⟩ := hok.sending hpc
      have hj : k.main.ids[0]? = some (id : Int) := by
        rw [hid]
        exact hok.smbx (by omega)
      rw [hmsg] at htext
      obtain ⟨hboxes, hat'⟩ := h.boxes.send hnew hj (.request hsize ht hdraws htext) hs
      have hx := hok.op hd (fun _ _ he => by cases he) (fun _ _ _ _ he => by cases he)
      refine h.client ht hborn hlive hx ?_ hboxes ?_
      · rw [hat' 0, hat' (t + 1), if_pos rfl, if_neg (Nat.succ_ne_zero t)]
        exact htok.send hpc ((ofTask_request ht ht htext).mpr rfl)
      · intro t' ht' hne
        refine .send hat' ?_
        rw [Bool.eq_false_iff]
        exact fun hof => hne ((ofTask_request ht ht' htext).mp hof)
  | @recv id mode type m hpc hid =>
      have hj : k.main.ids[t + 1]? = some (id : Int) := by
        rw [hid]
        exact hok.rmbx (by omega)
      obtain ⟨hmem, hboxes, hat'⟩ := h.boxes.recv hnew hj hs
      have hx := hok.op hd (fun _ _ he => by cases he)
        (fun _ _ _ _ he => by cases he; exact h.boxes.kinds _ m hmem)
      refine h.client ht hborn hlive hx ?_ hboxes fun _ _ _ => .recv hat'
      rw [hat' 0, hat' (t + 1), if_pos rfl, if_neg (Nat.succ_ne_zero t).symm]
      exact htok.recv hpc hmem
  | @meet what =>
      obtain rfl := Boxes.next_meet_eq hs
      have hx := hok.op hd (fun _ _ he => by cases he) (fun _ _ _ _ he => by cases he)
      exact h.client ht hborn hlive hx (htok.look rfl) h.boxes fun t' _ _ => .refl t'

/-- The call of a client returns. -/
theorem Inv.clientRet (h : Inv N P k B at_) (ht : t < NTASKS) (hat : at_ t = some (c, o))
    (hf : Call.fits P c o r) :
    Inv N P (k.setMfun t ((k.mfun t).ret t r)) B (Function.update at_ t none) := by
  have hok := h.clients t ht
  have htok := h.tokens t ht
  rw [hat] at hok htok
  obtain ⟨hborn, hlive⟩ := client_at_call hok.stands.call.1
  obtain ⟨hx, htok'⟩ := hok.ret ht h.length_le hf htok
  exact h.client ht hborn hlive hx htok' h.boxes fun t' _ _ => .refl t'

/-- A client moves on. -/
theorem Inv.clientOwn (h : Inv N P k B at_) (ht : t < NTASKS) {draws : List Word}
    (hs : k.ownMfun t draws = some k') : Inv N P k' B at_ := by
  obtain ⟨x, rfl, hx, htok⟩ := (h.clients t ht).own (h.tokens t ht) hs
  have hpc : (k.mfun t).pc ≠ .unborn ∧ (k.mfun t).pc ≠ .done := by
    unfold Game.ownMfun at hs
    dsimp only at hs
    split at hs
    · rename_i hpc
      simp [hpc]
    · rename_i hpc
      simp [hpc]
    · cases hs
  have hnext := h.client ht hpc.1 hpc.2 hx htok h.boxes fun t' _ _ => .refl t'
  rwa [Function.update_eq_self] at hnext

/-! ## Steps of the server -/

/-- The server invokes its call. -/
theorem Inv.serverEnter (h : Inv N P k B at_) (hat : at_ NTASKS = none)
    (hc : k.bfun.call N = some c) :
    Inv N P { k with bfun := k.bfun.enter } B (Function.update at_ NTASKS (some (c, none))) := by
  obtain ⟨hborn, hlive⟩ := server_at_call hc
  have hok := h.server
  refine h.bfun hborn hlive (hok.enter hc) (fun t ht => ?_) h.boxes
  have htok := h.tokens t ht
  rw [hat] at htok hok
  exact htok.serverEnter hok ht

/-- The call of the server has its effect. -/
theorem Inv.serverOp (h : Inv N P k B at_) (hat : at_ NTASKS = some (c, none))
    (hd : Call.does P c op) (hs : Boxes.next B op = some B') :
    Inv N P k B' (Function.update at_ NTASKS (some (c, some op))) := by
  have hok := h.server
  have htok := h.tokens
  rw [hat] at hok htok
  obtain ⟨hc, -⟩ := hok.stands.call
  obtain ⟨hborn, hlive⟩ := server_at_call hc
  have hnew := h.born (h.started_of_server hborn)
  cases ServerOp.of_does hok hc hd with
  | @find id j hpc =>
      obtain ⟨rfl, hj⟩ := h.boxes.find hnew hs
      have hx := hok.op hd (fun id' key' he => by cases he; exact hj)
        (fun _ _ _ _ he => by cases he)
      exact h.bfun hborn hlive hx (fun t ht => (htok t ht).serverLook rfl) h.boxes
  | @send id m rmbx hpc hid hsize htext =>
      obtain ⟨t, rest, ht, hget, hmsg⟩ := hok.sending rmbx hpc
      have hj : k.main.ids[t + 1]? = some (id : Int) := by
        rw [hid]
        exact hok.rmbx t rmbx hget (by omega)
      rw [hmsg] at htext
      obtain ⟨hboxes, hat'⟩ := h.boxes.send hnew hj (.reply hsize ht htext) hs
      have hx := hok.op hd (fun _ _ he => by cases he) (fun _ _ _ _ he => by cases he)
      refine h.bfun hborn hlive hx (fun t' ht' => ?_) hboxes
      rw [hat' 0, if_neg (Nat.succ_ne_zero t).symm]
      refine (htok t' ht').serverSend hpc ?_
      have hfirst : (k.bfun.msg[0]? == some (.ofNat 32 t')) = ofTask t' m := by
        rw [hmsg, Bool.eq_iff_iff, ofTask_reply ht ht' htext, beq_iff_eq]
        show some (BitVec.ofNat 32 t) = some _ ↔ _
        rw [Option.some.injEq, ofNat_inj ht ht', eq_comm]
      rw [hat' (t' + 1), hfirst]
      split
      · rename_i htt
        rw [List.countP_append, List.countP_singleton, ← htt]
        cases ofTask t' m <;> simp
      · omega
  | @recv id mode type m hpc hid =>
      have hj : k.main.ids[0]? = some (id : Int) := by
        rw [hid]
        exact hok.smbx (by omega)
      obtain ⟨hmem, hboxes, hat'⟩ := h.boxes.recv hnew hj hs
      have hx := hok.op hd (fun _ _ he => by cases he)
        (fun _ _ _ _ he => by cases he; exact h.boxes.kinds _ m hmem)
      refine h.bfun hborn hlive hx (fun t ht => ?_) hboxes
      rw [hat' 0, hat' (t + 1), if_pos rfl, if_neg (Nat.succ_ne_zero t)]
      exact (htok t ht).serverRecv hpc hmem
  | @meet what =>
      obtain rfl := Boxes.next_meet_eq hs
      have hx := hok.op hd (fun _ _ he => by cases he) (fun _ _ _ _ he => by cases he)
      exact h.bfun hborn hlive hx (fun t ht => (htok t ht).serverLook rfl) h.boxes

/-- The call of the server returns. -/
theorem Inv.serverRet (h : Inv N P k B at_) (hat : at_ NTASKS = some (c, o))
    (hf : Call.fits P c o r) (hfail : (k.bfun.ret r).failed = false) :
    Inv N P { k with bfun := k.bfun.ret r } B (Function.update at_ NTASKS none) := by
  have hok := h.server
  have htok := h.tokens
  rw [hat] at hok htok
  obtain ⟨hborn, hlive⟩ := server_at_call hok.stands.call.1
  obtain ⟨hy, htok'⟩ := hok.ret h.length_le hf hfail
  exact h.bfun hborn hlive hy (fun t ht => htok' t ht _ _ _ _ (htok t ht)) h.boxes

/-- The server moves on. -/
theorem Inv.serverOwn (h : Inv N P k B at_) (hs : k.ownBfun = some k') : Inv N P k' B at_ := by
  obtain ⟨y, rfl, hy, htok⟩ := h.server.own hs
  have hpc : k.bfun.pc ≠ .unborn ∧ k.bfun.pc ≠ .done := by
    unfold Game.ownBfun at hs
    dsimp only at hs
    split at hs
    · rename_i hpc
      simp [hpc]
    · rename_i hpc
      simp [hpc]
    · rename_i hpc
      simp [hpc]
    · cases hs
  have hnext := h.bfun hpc.1 hpc.2 hy (fun t ht => htok t ht _ _ _ _ (h.tokens t ht)) h.boxes
  rwa [Function.update_eq_self] at hnext

/-! ## Steps of `main` -/

/-- `main` moves, the messages of the clients at most go. -/
theorem Inv.mainMove (h : Inv N P k B at_) {x : Main} {e' : Int} {new : List Int}
    (hids : x.ids = k.main.ids ++ new) (he : k.end_ ≤ e')
    (hx : MainOk N P { k with main := x, end_ := e' } B' a)
    (hboxes : BoxesOk N x.ids e' B' a)
    (hcount : ∀ t < NTASKS,
      (boxAt x.ids B' 0).countP (ofTask t) ≤ (boxAt k.main.ids B 0).countP (ofTask t) ∧
        (boxAt x.ids B' (t + 1)).countP (ofTask t) ≤
          (boxAt k.main.ids B (t + 1)).countP (ofTask t)) :
    Inv N P { k with main := x, end_ := e' } B' (Function.update at_ (NTASKS + 1) a) := by
  have hother : ∀ {u}, u ≠ NTASKS + 1 → Function.update at_ (NTASKS + 1) a u = at_ u :=
    fun hu => Function.update_of_ne hu ..
  have hserver : NTASKS ≠ NTASKS + 1 := (Nat.succ_ne_self _).symm
  have hclient : ∀ {t}, t < NTASKS → t ≠ NTASKS + 1 := fun ht => by omega
  refine ⟨?_, ?_, ?_, ?_, ?_, ?_⟩
  · intro t ht
    rw [hother (hclient ht)]
    show ClientOk N P x.ids e' t (k.mfun t) (at_ t)
    rw [hids]
    exact (h.clients t ht).mono he
  · rw [hother hserver]
    show ServerOk N P x.ids e' k.bfun (at_ NTASKS)
    rw [hids]
    exact h.server.mono he
  · rw [Function.update_self]
    exact hx
  · rw [Function.update_self]
    exact hboxes
  · intro t ht
    rw [hother (hclient ht), hother hserver]
    exact (h.tokens t ht).congr (hcount t ht).1 (hcount t ht).2
  · intro u hu
    have hne : u ≠ NTASKS + 1 := by omega
    rw [hother hne]
    exact h.others u hu

/-- `main` invokes its call. -/
theorem Inv.mainEnter (h : Inv N P k B at_) (hat : at_ (NTASKS + 1) = none)
    (hc : k.main.call N = some c) :
    Inv N P { k with main := { k.main with inside := true } } B
      (Function.update at_ (NTASKS + 1) (some (c, none))) := by
  refine h.mainMove (x := { k.main with inside := true }) (a := some (c, none))
    (List.append_nil _).symm le_rfl ?_ ?_ fun t _ => ⟨le_rfl, le_rfl⟩
  · exact { h.main with stands := .invoked rfl hc }
  · have hboxes := h.boxes
    rw [hat] at hboxes
    refine { hboxes with known := ?_, created := nofun }
    intro id b hb
    exact .inl ((hboxes.known id b hb).resolve_right (by rintro ⟨c, ha⟩; cases ha))

/-- What the call of `main` may come to. -/
inductive MainOp (N : Names) (x : Main) : BoxOp → Prop
  | create {id} (hpc : x.pc = .create) : MainOp N x (.create id (N.key x.ids.length))
  | send {id : Nat} {m i} (hpc : x.pc = .tell i) (hid : (id : Int) = x.ids.getD (boxNo i) 0)
      (hsize : m.m_ts = m.m_text.length) (htext : m.m_text = gameMsg) : MainOp N x (.send id m)
  | remove {id : Nat} {i} (hpc : x.pc = .rmid i) : MainOp N x (.remove id)
  | meet {what} : MainOp N x (.meet what)

theorem MainOp.of_does {x : Main} (hc : x.call N = some c) (hd : Call.does P c op) :
    MainOp N x op := by
  unfold Main.call at hc
  split at hc
  · rename_i hpc
    cases hc
    cases op with
    | create id key =>
        rw [hd.1]
        exact .create hpc
    | find id key =>
        -- 0x666 has the bit of IPC_EXCL, so no queue that is already there is taken
        exact absurd hd.2.2 (by decide)
    | meet what => exact .meet
    | _ => exact hd.elim
  · rename_i i hpc
    cases hc
    cases op with
    | send id m =>
        obtain ⟨hid, -, -, hsize, htext⟩ := hd
        rw [← htext] at hsize
        exact .send hpc hid hsize htext
    | meet what => exact .meet
    | _ => exact hd.elim
  · rename_i i hpc
    cases hc
    cases op with
    | remove id => exact .remove hpc
    | meet what => exact .meet
    | _ => exact hd.elim
  · cases hc

/-- The call of `main` has its effect. -/
theorem Inv.mainOp (h : Inv N P k B at_) (hat : at_ (NTASKS + 1) = some (c, none))
    (hd : Call.does P c op) (hs : Boxes.next B op = some B') :
    Inv N P k B' (Function.update at_ (NTASKS + 1) (some (c, some op))) := by
  have hmain := h.main
  have hboxes := h.boxes
  rw [hat] at hmain hboxes
  obtain ⟨hc, hin⟩ := hmain.stands.call
  have hstands : Stands P (k.main.call N) k.main.inside (some (c, some op)) := by
    refine ⟨fun hno => ?_, fun _ => ⟨c, some op, hc, rfl⟩, fun c' op' ha => ?_⟩
    · rw [hin] at hno
      cases hno
    · cases ha
      exact hd
  have hold : ∀ id b, B id = some b → ∃ j, k.main.ids[j]? = some (id : Int) ∧ b.key = N.key j :=
    fun id b hb => (hboxes.known id b hb).resolve_right (by rintro ⟨c, ha⟩; cases ha)
  cases MainOp.of_does hc hd with
  | @create id hpc =>
      unfold Boxes.next at hs
      dsimp only at hs
      split at hs
      · rename_i hfree
        cases hs
        have hnew : (id : Int) ∉ k.main.ids := by
          intro hmem
          have hsome := hmain.live hpc id hmem
          rw [hfree.1] at hsome
          cases hsome
        have hsame := boxAt_create (B := B) hnew (some ⟨N.key k.main.ids.length, []⟩)
        refine h.mainMove (x := k.main) (List.append_nil _).symm le_rfl ?_ ?_ ?_
        · refine { hmain with stands := hstands, live := ?_ }
          intro _ id' hid'
          by_cases hid : id' = id
          · subst hid
            rw [Function.update_self]
            rfl
          · rw [Function.update_of_ne hid]
            exact hmain.live hpc id' hid'
        · refine ⟨?_, hboxes.distinct, ?_, ?_⟩
          · intro j m hm
            rw [hsame] at hm
            exact hboxes.kinds j m hm
          · intro id' b hb
            by_cases hid : id' = id
            · subst hid
              rw [Function.update_self] at hb
              cases hb
              exact .inr ⟨c, rfl⟩
            · rw [Function.update_of_ne hid] at hb
              exact .inl (hold id' b hb)
          · intro c' id' key ha
            cases ha
            exact ⟨Function.update_self .., hnew⟩
        · intro t _
          rw [hsame, hsame]
          exact ⟨le_rfl, le_rfl⟩
      · cases hs
  | @send id m i hpc hid hsize htext =>
      have hphase := hmain.phase
      rw [hpc] at hphase
      have hlen := hmain.created (by simp [hpc])
      have hj : k.main.ids[boxNo i]? = some (id : Int) := by
        have hlt : boxNo i < k.main.ids.length := by
          rw [hlen]
          unfold boxNo
          split <;> omega
        rw [hid, List.getD_eq_getElem?_getD, List.getElem?_eq_getElem hlt]
        rfl
      have hkind : Kind k.end_ (boxNo i) m := .game hsize hphase.2.1 hphase.1.ge htext
      obtain ⟨hsent, hat'⟩ := hboxes.send (fun c id key ha => by cases ha) hj hkind hs
      refine h.mainMove (x := k.main) (List.append_nil _).symm le_rfl ?_ ?_ ?_
      · exact { hmain with stands := hstands, live := fun hcr => by rw [hpc] at hcr; cases hcr }
      · refine ⟨hsent.kinds, hsent.distinct, ?_, fun c id key ha => by cases ha⟩
        intro id' b hb
        exact .inl ((hsent.known id' b hb).resolve_right (by rintro ⟨c, ha⟩; cases ha))
      · intro t ht
        exact Fewer.send hat' (ofTask_game ht htext)
  | @remove id i hpc =>
      obtain ⟨b, hb, rfl⟩ := Option.map_eq_some_iff.mp hs
      refine h.mainMove (x := k.main) (List.append_nil _).symm le_rfl ?_ ?_ ?_
      · exact { hmain with stands := hstands, live := fun hcr => by rw [hpc] at hcr; cases hcr }
      · refine ⟨?_, hboxes.distinct, ?_, fun c id key ha => by cases ha⟩
        · intro j m hm
          rcases boxAt_remove k.main.ids B id j with heq | hnil
          · rw [heq] at hm
            exact hboxes.kinds j m hm
          · rw [hnil] at hm
            cases hm
        · intro id' b' hb'
          by_cases hid : id' = id
          · subst hid
            rw [Function.update_self] at hb'
            cases hb'
          · rw [Function.update_of_ne hid] at hb'
            exact .inl (hold id' b' hb')
      · have hcount : ∀ t j, (boxAt k.main.ids (Function.update B id none) j).countP (ofTask t) ≤
            (boxAt k.main.ids B j).countP (ofTask t) := by
          intro t j
          rcases boxAt_remove k.main.ids B id j with heq | hnil
          · rw [heq]
          · rw [hnil]
            exact Nat.zero_le _
        exact fun t _ => ⟨hcount t 0, hcount t (t + 1)⟩
  | @meet what =>
      obtain rfl := Boxes.next_meet_eq hs
      refine h.mainMove (x := k.main) (List.append_nil _).symm le_rfl ?_ ?_ ?_
      · exact { hmain with stands := hstands, live := hmain.live }
      · exact ⟨hboxes.kinds, hboxes.distinct, fun id b hb => .inl (hold id b hb),
          fun c id key ha => by cases ha⟩
      · exact fun t _ => ⟨le_rfl, le_rfl⟩

/-- `main` takes note of the queue that it has created. -/
theorem Inv.mainCreated (h : Inv N P k B at_) (hat : at_ (NTASKS + 1) = some (c, o))
    (hf : Call.fits P c o r) (hpc : k.main.pc = .create) :
    Inv N P { k with main := k.main.ret r } B (Function.update at_ (NTASKS + 1) none) := by
  have hmain := h.main
  have hboxes := h.boxes
  rw [hat] at hmain hboxes
  obtain ⟨hc, -⟩ := hmain.stands.call
  have hc' : c = .msgget (N.key k.main.ids.length) (0x666#32 ||| IPC_CREAT) := by
    unfold Main.call at hc
    rw [hpc] at hc
    exact (Option.some.inj hc).symm
  subst hc'
  have hret : k.main.ret r =
      ⟨if k.main.ids.length < NTASKS then .create else .spawn 0, false,
        k.main.ids ++ [value r]⟩ := by
    simp [Main.ret, hpc]
  have hstart : (k.main.ret r).pc.started = 0 := by
    rw [hret]
    dsimp only
    split <;> rfl
  have hlen := hmain.creating hpc
  -- what was created is under the identifier that was returned
  have hval : ∀ id : Nat, value r = (id : Int) →
      B id = some ⟨N.key k.main.ids.length, []⟩ ∧ (id : Int) ∉ k.main.ids := by
    intro id hv
    obtain ⟨id', hv', ⟨key, rfl⟩ | ⟨key, rfl⟩⟩ := value_msgget hf (by omega)
    · exact absurd (hmain.stands.does _ _ rfl).2.2 (by decide)
    · have hkey := (hmain.stands.does _ _ rfl).1
      have hid : id' = id := by omega
      rw [hid, hkey] at hboxes
      exact hboxes.created _ id _ rfl
  have hnone : ∀ id key, o = some (.create id key) →
      value r = (id : Int) ∧ key = N.key k.main.ids.length := by
    rintro id key rfl
    refine ⟨?_, (hmain.stands.does _ _ rfl).1⟩
    cases r with
    | ok v =>
        cases hf
        rfl
    | _ => exact hf.elim
  have hsame : ∀ i, boxAt (k.main.ids ++ [value r]) B i = boxAt k.main.ids B i :=
    boxAt_concat fun id hv => ⟨_, (hval id hv).1⟩
  have hids : (k.main.ret r).ids = k.main.ids ++ [value r] := by rw [hret]
  refine h.mainMove (x := k.main.ret r) hids le_rfl ?_ ?_ ?_
  · refine ⟨.outside (by rw [hret]), ?_, ?_, ?_, ?_, ?_, ?_⟩
    · intro hcr
      dsimp only at hcr
      rw [hret] at hcr ⊢
      dsimp only at hcr ⊢
      split at hcr
      · rw [List.length_append, List.length_singleton]
        omega
      · cases hcr
    · intro hcr
      dsimp only at hcr
      rw [hret] at hcr ⊢
      dsimp only at hcr ⊢
      split at hcr
      · exact absurd rfl hcr
      · rw [List.length_append, List.length_singleton]
        omega
    · intro _ id hmem
      dsimp only at hmem
      rw [hids] at hmem
      rcases List.mem_append.mp hmem with hold | hlast
      · exact hmain.live hpc id hold
      · rw [(hval id (List.mem_singleton.mp hlast).symm).1]
        rfl
    · intro t ht _
      exact hmain.clients t ht (by rw [hpc]; exact Nat.zero_le _)
    · intro _
      exact hmain.server (by rw [hpc]; rfl)
    · have hphase := hmain.phase
      rw [hpc] at hphase
      show Phase k.end_ _ _ (k.main.ret r).pc
      rw [hret]
      dsimp only
      split
      · exact hphase
      · exact ⟨hphase, Nat.zero_le _⟩
  · rw [hids]
    refine ⟨?_, distinct_concat hboxes.distinct fun id hv => (hval id hv).2, ?_, nofun⟩
    · intro j m hm
      rw [hsame] at hm
      exact hboxes.kinds j m hm
    · intro id b hb
      refine .inl ?_
      obtain ⟨j, hj, hkey⟩ | ⟨c, ha⟩ := hboxes.known id b hb
      · refine ⟨j, ?_, hkey⟩
        rw [List.getElem?_append_left]
        · exact hj
        · exact (List.getElem?_eq_some_iff.mp hj).1
      · cases ha
        obtain ⟨hv, hkey⟩ := hnone id b.key rfl
        refine ⟨k.main.ids.length, ?_, hkey⟩
        rw [List.getElem?_concat_length, hv]
  · intro t _
    rw [hids, hsame, hsame]
    exact ⟨le_rfl, le_rfl⟩

/-- The call of `main` returns. -/
theorem Inv.mainRet (h : Inv N P k B at_) (hat : at_ (NTASKS + 1) = some (c, o))
    (hf : Call.fits P c o r) :
    Inv N P { k with main := k.main.ret r } B (Function.update at_ (NTASKS + 1) none) := by
  have hmain := h.main
  have hboxes := h.boxes
  rw [hat] at hmain hboxes
  obtain ⟨hc, -⟩ := hmain.stands.call
  have hphase := hmain.phase
  by_cases hcreate : k.main.pc = .create
  · exact h.mainCreated hat hf hcreate
  have hlen := hmain.created hcreate
  have hnot : ∀ id key, o ≠ some (.create id key) := by
    rintro id key rfl
    cases MainOp.of_does hc (hmain.stands.does _ _ rfl)
    contradiction
  have hkept : BoxesOk N k.main.ids k.end_ B none := by
    refine ⟨hboxes.kinds, hboxes.distinct, ?_, nofun⟩
    intro id b hb
    refine .inl ((hboxes.known id b hb).resolve_right ?_)
    rintro ⟨c', ha⟩
    exact hnot id b.key (by cases ha; rfl)
  have hmove : ∀ pc, pc ≠ .create → pc.started = NTASKS + 1 →
      Phase k.end_ (fun j => (k.mfun j).pc = .done) (k.bfun.pc = .done) pc →
      k.main.ret r = ⟨pc, false, k.main.ids⟩ →
      Inv N P { k with main := k.main.ret r } B (Function.update at_ (NTASKS + 1) none) := by
    intro pc hne hstart hph hret
    rw [hret]
    refine h.mainMove (x := ⟨pc, false, k.main.ids⟩) (List.append_nil _).symm le_rfl ?_ hkept
      fun t _ => ⟨le_rfl, le_rfl⟩
    refine ⟨.outside rfl, fun hcr => absurd hcr hne, fun _ => hlen,
      fun hcr => absurd hcr hne, ?_, ?_, hph⟩
    · intro t ht hle
      have hle' : pc.started ≤ t + 1 := hle
      omega
    · intro h0
      have h0' : pc.started = 0 := h0
      omega
  unfold Main.call at hc
  split at hc
  · contradiction
  · rename_i i hpc
    rw [hpc] at hphase
    exact hmove (.join i) (by simp) rfl hphase (by simp [Main.ret, hpc])
  · rename_i i hpc
    rw [hpc] at hphase
    by_cases hi : i < NTASKS
    · exact hmove (.rmid (i + 1)) (by simp) rfl ⟨hphase.1, hi, hphase.2.2⟩
        (by simp [Main.ret, hpc, hi])
    · exact hmove .done (by simp) rfl hphase.1 (by simp [Main.ret, hpc, hi])
  · cases hc

/-- `main` starts client `t`. -/
theorem ClientOk.spawn {x : Mfun} (h : ClientOk N P ids e t x a) (hpc : x.pc = .unborn) :
    a = none ∧
      ClientOk N P ids e t { x with msg := x.msg.set 0 (.ofNat 32 t), pc := .getSmbx } none := by
  have hin : x.inside = false := by
    cases hin : x.inside with
    | false => rfl
    | true =>
        obtain ⟨c, o, hc, -⟩ := h.stands.within hin
        exact absurd hpc (client_at_call hc).1
  have hlen := h.length (by simp [hpc])
  have hreq := h.requests (by simp [hpc])
  refine ⟨h.stands.out hin, ?_⟩
  exact
    { stands := .outside hin
      smbx := h.smbx
      rmbx := h.rmbx
      found := .outside
      got := nofun
      length := fun _ => by rw [List.length_set, hlen]
      first := fun _ => List.getElem?_set_self (by rw [hlen]; exact Nat.succ_pos _)
      sending := nofun
      requests := fun _ => by simpa [Mfun.owes, hpc] using hreq
      last := h.last
      wrong := h.wrong
      done := nofun }

theorem ServerOk.spawn {y : Bfun} (h : ServerOk N P ids e y a) (hpc : y.pc = .unborn) :
    a = none ∧ ServerOk N P ids e { y with pc := .getSmbx } none := by
  have hin : y.inside = false := by
    cases hin : y.inside with
    | false => rfl
    | true =>
        obtain ⟨c, o, hc, -⟩ := h.stands.within hin
        exact absurd hpc (server_at_call hc).1
  refine ⟨h.stands.out hin, ?_⟩
  exact
    { h with
      stands := .outside hin
      found := .outside
      got := nofun
      asking := fun _ => h.asking (by simp [hpc])
      asked := by simp
      reply := nofun
      sending := nofun }

/-- `main` moves on. -/
theorem Inv.mainOwn (h : Inv N P k B at_) (hs : k.ownMain = some k') : Inv N P k' B at_ := by
  have hmain := h.main
  have hphase := hmain.phase
  have hnocall : ∀ {pc : MainPc}, k.main.pc = pc → k.main.call N = none →
      k.main.inside = false ∧ at_ (NTASKS + 1) = none := by
    intro pc hpc hnone
    cases hin : k.main.inside with
    | false => exact ⟨rfl, hmain.stands.out hin⟩
    | true =>
        obtain ⟨c, o, hc, -⟩ := hmain.stands.within hin
        rw [hnone] at hc
        cases hc
  -- `main` alone moves, to a place where all threads have been started
  have hmove : ∀ {pc pc' : MainPc} (e' : Int), k.main.pc = pc → k.main.call N = none →
      pc ≠ .create → k.main.pc.started = NTASKS + 1 → pc' ≠ .create → pc'.started = NTASKS + 1 →
      k.end_ ≤ e' → Phase e' (fun j => (k.mfun j).pc = .done) (k.bfun.pc = .done) pc' →
      Inv N P { k with main := { k.main with pc := pc' }, end_ := e' } B at_ := by
    intro pc pc' e' hpc hnone hne hstart hne' hstart' he hph
    obtain ⟨hin, hat⟩ := hnocall hpc hnone
    have hboxes := h.boxes
    have hnext : Inv N P { k with main := { k.main with pc := pc' }, end_ := e' } B
        (Function.update at_ (NTASKS + 1) (at_ (NTASKS + 1))) := by
      refine h.mainMove (List.append_nil _).symm he ?_ ?_ fun t _ => ⟨le_rfl, le_rfl⟩
      · refine ⟨?_, fun hcr => absurd hcr hne', fun _ => hmain.created (hpc ▸ hne),
          fun hcr => absurd hcr hne', ?_, ?_, hph⟩
        · rw [hat]
          exact .outside hin
        · intro t ht hle
          have hle' : pc'.started ≤ t + 1 := hle
          omega
        · intro h0
          have h0' : pc'.started = 0 := h0
          omega
      · exact { hboxes with kinds := fun j m hm => (hboxes.kinds j m hm).mono he }
    rwa [Function.update_eq_self] at hnext
  unfold Game.ownMain at hs
  dsimp only at hs
  split at hs
  · rename_i hpc
    cases hs
    obtain ⟨hin, hat⟩ := hnocall hpc (by simp [Main.call, hpc])
    obtain ⟨hb, hy⟩ := h.server.spawn (hmain.server (by rw [hpc]; rfl))
    rw [hpc] at hphase
    refine ⟨h.clients, ?_, ?_, h.boxes, ?_, h.others⟩
    · rw [hb]
      exact hy
    · refine ⟨?_, nofun, fun _ => hmain.created (by simp [hpc]), nofun, ?_, nofun, ?_⟩
      · rw [hat]
        exact .outside hin
      · intro t ht _
        exact hmain.clients t ht (by rw [hpc]; exact Nat.zero_le _)
      · exact ⟨hphase.1, by decide⟩
    · intro t ht
      exact (h.tokens t ht).serverLeave rfl rfl rfl
  · rename_i t hpc
    cases hs
    obtain ⟨hin, hat⟩ := hnocall hpc (by simp [Main.call, hpc])
    rw [hpc] at hphase
    have ht : t < NTASKS := hphase.2
    obtain ⟨ha, hx⟩ := (h.clients t ht).spawn (hmain.clients t ht (by rw [hpc]; exact le_rfl))
    have hother : ∀ {t'} {x : Mfun}, t' ≠ t → Function.update k.mfun t x t' = k.mfun t' :=
      fun hne => Function.update_of_ne hne ..
    refine ⟨?_, h.server, ?_, h.boxes, ?_, h.others⟩
    · intro t' ht'
      show ClientOk N P k.main.ids k.end_ t' (Function.update k.mfun t _ t') (at_ t')
      by_cases htt : t' = t
      · subst htt
        rw [Function.update_self, ha]
        exact hx
      · rw [hother htt]
        exact h.clients t' ht'
    · refine ⟨?_, ?_, fun _ => hmain.created (by simp [hpc]), ?_, ?_, ?_, ?_⟩
      · rw [hat]
        exact .outside hin
      · intro hcr
        dsimp only at hcr
        split at hcr <;> cases hcr
      · intro hcr
        dsimp only at hcr
        split at hcr <;> cases hcr
      · intro t' ht' hle
        show (Function.update k.mfun t _ t').pc = .unborn
        have htt : t' ≠ t ∧ t + 1 ≤ t' + 1 := by
          dsimp only at hle
          split at hle
          · have hle' : t + 2 ≤ t' + 1 := hle
            omega
          · have hle' : NTASKS + 1 ≤ t' + 1 := hle
            omega
        rw [hother htt.1]
        exact hmain.clients t' ht' (by rw [hpc]; exact htt.2)
      · intro h0
        dsimp only at h0
        split at h0 <;> cases h0
      · show Phase k.end_ _ _ (if t + 1 < NTASKS then _ else _)
        split
        · exact ⟨hphase.1, by assumption⟩
        · exact hphase.1
    · intro t' ht'
      show Tokens t' (Function.update k.mfun t _ t') (at_ t') k.bfun (at_ NTASKS) _ _
      by_cases htt : t' = t
      · subst htt
        rw [Function.update_self, ha]
        exact (h.tokens t' ht').leave rfl rfl
      · rw [hother htt]
        exact h.tokens t' ht'
  · rename_i hpc
    cases hs
    rw [hpc] at hphase
    have he : k.end_ = -1 := hphase
    refine hmove k.end_ hpc (by simp [Main.call, hpc]) (by simp) (by rw [hpc]; rfl) (by simp) rfl
      le_rfl ⟨by omega, by decide, nofun⟩
  · rename_i i hpc
    cases hs
    rw [hpc] at hphase
    obtain ⟨he, hi, hdone⟩ := hphase
    exact hmove (i : Int) hpc (by simp [Main.call, hpc]) (by simp) (by rw [hpc]; rfl) (by simp) rfl
      (by omega) ⟨rfl, hi, hdone⟩
  · rename_i i hpc
    rw [hpc] at hphase
    obtain ⟨he, hi, hdone⟩ := hphase
    split at hs
    · rename_i hlt
      split at hs
      · rename_i hd
        cases hs
        refine hmove k.end_ hpc (by simp [Main.call, hpc]) (by simp) (by rw [hpc]; rfl) (by simp)
          rfl le_rfl ⟨by omega, hlt, ?_⟩
        intro j hj
        rcases Nat.lt_succ_iff_lt_or_eq.mp hj with hlt' | rfl
        · exact hdone j hlt'
        · exact hd
      · cases hs
    · rename_i hge
      have hii : i = NTASKS := by omega
      subst hii
      split at hs
      · rename_i hd
        cases hs
        exact hmove k.end_ hpc (by simp [Main.call, hpc]) (by simp) (by rw [hpc]; rfl) (by simp)
          rfl le_rfl ⟨he, Nat.zero_le _, hdone, hd⟩
      · cases hs
  · cases hs

/-! ## The program -/

theorem inv_start {junk : Tid → List Word} (hjunk : ∀ u, (junk u).length = MAXSIZ + 1)
    (hB : ∀ id, B id = none) : Inv N P (.start junk) B fun _ => none := by
  have hempty : ∀ j, boxAt [] B j = [] := fun j => rfl
  refine ⟨?_, ?_, ?_, ?_, ?_, fun _ _ => rfl⟩
  · intro t _
    exact
      { stands := .outside rfl
        smbx := nofun
        rmbx := nofun
        found := .outside
        got := nofun
        length := fun _ => hjunk t
        first := nofun
        sending := nofun
        requests := fun _ => rfl
        last := Nat.zero_le _
        wrong := nofun
        done := nofun }
  · exact
      { stands := .outside rfl
        smbx := nofun
        rmbx := nofun
        found := .outside
        got := nofun
        asking := fun _ => (by decide : 0 < NTASKS)
        asked := fun hpc => absurd (List.mem_cons_self) hpc
        reply := nofun
        sending := nofun
        unknown := nofun
        inBounds := rfl }
  · exact
      { stands := .outside rfl
        creating := fun _ => Nat.zero_le _
        created := fun hpc => absurd rfl hpc
        live := nofun
        clients := fun _ _ _ => rfl
        server := fun _ => rfl
        phase := rfl }
  · refine ⟨nofun, nofun, ?_, nofun⟩
    intro id b hb
    rw [hB id] at hb
    cases hb
  · intro t _
    exact ⟨le_rfl, le_rfl⟩

/-- That a receive of the server has failed is not forgotten. -/
theorem failed_of_next {m : Move Tid Call Ret Own} (hs : (program N).next k m = some k')
    (hfail : k'.bfun.failed = false) : k.bfun.failed = false := by
  unfold program at hs
  dsimp only at hs
  split at hs
  · split at hs
    · cases hs
      unfold Game.enter at hfail
      split at hfail
      · exact hfail
      · split at hfail
        · unfold Bfun.enter at hfail
          split at hfail <;> exact hfail
        · split at hfail <;> exact hfail
    · cases hs
  · split at hs
    · cases hs
      unfold Game.ret at hfail
      split at hfail
      · exact hfail
      · split at hfail
        · unfold Bfun.ret at hfail
          dsimp only at hfail
          split at hfail
          · exact hfail
          · exact hfail
          · split at hfail
            · exact hfail
            · cases hfail
          · exact hfail
          · exact hfail
        · split at hfail <;> exact hfail
    · cases hs
  · split at hs
    · unfold Game.ownMfun at hs
      dsimp only at hs
      repeat' split at hs
      all_goals cases hs
      all_goals exact hfail
    · cases hs
  · unfold Game.ownBfun at hs
    dsimp only at hs
    repeat' split at hs
    all_goals cases hs
    all_goals exact hfail
  · unfold Game.ownMain at hs
    dsimp only at hs
    repeat' split at hs
    all_goals cases hs
    all_goals exact hfail

/-- The invariant, on the boxes, as long as no receive of the server has failed. -/
theorem inv_on_boxes (N : Names) (P : Params) :
    (((service P).atomic Tid).calledBy Event.observed (program N)).Invariant fun x =>
      x.1.bfun.failed = false → Inv N P x.1 x.2.1 x.2.2 := by
  refine TSys.invariant_calledBy_atomic (V := service P) (T := Tid)
    (I := fun k B at_ => k.bfun.failed = false → Inv N P k B at_) ?_ ?_ ?_ ?_ ?_
  · rintro k B ⟨junk, hjunk, rfl⟩ hB _
    exact inv_start hjunk hB
  · intro k B at_ u c k' hinv hat hs hfail
    have h := hinv (failed_of_next hs hfail)
    unfold program at hs
    dsimp only at hs
    split at hs
    · rename_i hcall
      obtain ⟨hin, hc⟩ := hcall
      cases hs
      unfold Game.call at hc
      unfold Game.inside at hin
      unfold Game.enter
      split at hc
      · rename_i hu
        rw [if_pos hu] at hin ⊢
        exact h.clientEnter hu hat hin hc
      · rename_i hu
        rw [if_neg hu]
        split at hc
        · rename_i hu'
          subst hu'
          rw [if_pos rfl]
          exact h.serverEnter hat hc
        · rename_i hu'
          rw [if_neg hu']
          split at hc
          · rename_i hu''
            subst hu''
            rw [if_pos rfl]
            exact h.mainEnter hat hc
          · cases hc
    · cases hs
  · intro k B at_ u c op B' hinv hat hd hs hfail
    have h := hinv hfail
    rcases Nat.lt_trichotomy u NTASKS with hu | rfl | hu
    · exact h.clientOp hu hat hd hs
    · exact h.serverOp hat hd hs
    · by_cases hu' : u = NTASKS + 1
      · subst hu'
        exact h.mainOp hat hd hs
      · rw [h.others u (Nat.lt_of_le_of_ne hu (Ne.symm hu'))] at hat
        cases hat
  · intro k B at_ u c o r k' hinv hat hf hs hfail
    have h := hinv (failed_of_next hs hfail)
    unfold program at hs
    dsimp only at hs
    split at hs
    · cases hs
      unfold Game.ret at hfail ⊢
      rcases Nat.lt_trichotomy u NTASKS with hu | rfl | hu
      · rw [if_pos hu]
        exact h.clientRet hu hat hf
      · rw [if_neg (lt_irrefl _), if_pos rfl] at hfail ⊢
        exact h.serverRet hat hf hfail
      · by_cases hu' : u = NTASKS + 1
        · subst hu'
          rw [if_neg (Nat.not_lt.mpr (Nat.le_succ _)), if_neg (Nat.succ_ne_self _), if_pos rfl]
          exact h.mainRet hat hf
        · rw [h.others u (Nat.lt_of_le_of_ne hu (Ne.symm hu'))] at hat
          cases hat
    · cases hs
  · intro k B at_ l k' hinv hs hfail
    have h := hinv (failed_of_next hs hfail)
    cases l with
    | mfun t draws =>
        unfold program at hs
        dsimp only at hs
        split at hs
        · rename_i ht
          exact h.clientOwn ht hs
        · cases hs
    | bfun => exact h.serverOwn hs
    | main => exact h.mainOwn hs

/-- On the message module, in every run and as long as no receive of the server fails:
each reply that the server sends to a client answers a request of its own, and each
reply that a client accepts is one that was sent to it, so that the three counts differ
by what is in the queues and by at most one. The server knows every message and uses no
index outside its array, and no client is told a wrong reply or ends, unless `main` has
come to end it or one of its own calls has failed. -/
theorem testmsg_exchange (N : Names) (P : Params) :
    ((machine P).calledBy observed (program N)).Invariant fun x => x.1.bfun.failed = false →
      (x.1.bfun.unknown = true → (NTASKS : Int) ≤ x.1.end_) ∧ x.1.bfun.oob = false ∧
      ∀ t < NTASKS,
        (x.1.mfun t).cnt + (boxAt x.1.main.ids x.2.boxes (t + 1)).countP (ofTask t) ≤
          x.1.bfun.replies t ∧
        x.1.bfun.replies t + (boxAt x.1.main.ids x.2.boxes 0).countP (ofTask t) ≤
          (x.1.mfun t).requests ∧
        (x.1.mfun t).requests ≤ (x.1.mfun t).cnt + 1 ∧
        ((x.1.mfun t).wrong = true → (t : Int) ≤ x.1.end_) ∧
        ((x.1.mfun t).pc = .done → (x.1.mfun t).failed = true ∨ (t : Int) ≤ x.1.end_) := by
  let Good (k : Game) (B : Boxes) : Prop := k.bfun.failed = false →
    (k.bfun.unknown = true → (NTASKS : Int) ≤ k.end_) ∧ k.bfun.oob = false ∧
    ∀ t < NTASKS,
      (k.mfun t).cnt + (boxAt k.main.ids B (t + 1)).countP (ofTask t) ≤ k.bfun.replies t ∧
      k.bfun.replies t + (boxAt k.main.ids B 0).countP (ofTask t) ≤ (k.mfun t).requests ∧
      (k.mfun t).requests ≤ (k.mfun t).cnt + 1 ∧
      ((k.mfun t).wrong = true → (t : Int) ≤ k.end_) ∧
      ((k.mfun t).pc = .done → (k.mfun t).failed = true ∨ (t : Int) ≤ k.end_)
  have hlin : (machine P).Linearizable observed State.boxes (service P) :=
    .of_simulation (Answered P) (answered_init P) (answered_step P)
  refine hlin.invariant_calledBy (P := Good) ?_
  intro x hr hfail
  have h := inv_on_boxes N P x hr hfail
  refine ⟨h.server.unknown, h.server.inBounds, ?_⟩
  intro t ht
  have hok := h.clients t ht
  have htok := h.tokens t ht
  have hreq := htok.requests
  have hrep := htok.replies
  exact ⟨by omega, by omega, hok.last, hok.wrong, hok.done⟩

end RtaiDemos.Sysvmsg.TestMsg
