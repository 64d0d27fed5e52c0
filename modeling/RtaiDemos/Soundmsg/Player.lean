import RtaiDemos.Core.TSys

/-!
# The sound player

`main` and `speaker_handler` of `soundmsg.c`, with the messages between them. A step is
one call or condition of one of the two, or a SIGINT. `rt_rpcx` leaves its message with
the speaker and blocks until `rt_returnx`; no other task sends to the speaker. What
`filter` makes of a byte goes to the port and is read by nobody.
-/

namespace RtaiDemos.Soundmsg

def BUFSIZE : Nat := 200

/-- The bytes of the int 0xFFFFFFFF, the end request. -/
def endRequest : List UInt8 := [255, 255, 255, 255]

/-- Where `main` stands: `rt_receivex`, `while (!end)`, `lseek`, `!end` of the inner loop,
`read`, `rt_rpcx` with the bytes read and blocked in it, the last `rt_rpcx` and blocked
in it, and after it. -/
inductive MainPc
  | receive
  | outer
  | lseek
  | inner
  | read
  | rpc (data : List UInt8)
  | rpcWait
  | final
  | finalWait
  | joined
  deriving DecidableEq, Repr

/-- Where `speaker_handler` stands: `rt_sendx` and blocked in it, `while(!end)` with
`if (len)`, the call of `filter`, `rt_evdrpx`, `rt_receivex_if`, `rt_returnx`, the test
for the end request, `rt_task_wait_period`, and after the loop. -/
inductive SpeakerPc
  | sendx
  | sent
  | test
  | play
  | evdrp
  | receive
  | reply
  | check
  | period
  | left
  deriving DecidableEq, Repr

/-- The variables of the two, `end` among them as `ended`: the offset of the file, the
message of `rt_sendx`, that of `rt_rpcx` and what is returned for it; `buf`, `i` and `len`
of the speaker, and the bytes passed to `filter` so far. -/
structure State where
  ended : Bool
  main : MainPc
  pos : Nat
  hello : Bool
  request : Option (List UInt8)
  returned : Option Nat
  speaker : SpeakerPc
  buf : List UInt8
  i : Nat
  len : Nat
  played : List UInt8
  deriving DecidableEq, Repr

inductive Label
  | sigint
  | main
  | speaker
  deriving DecidableEq, Repr

/-- The buffer and `i` are not initialized. -/
def initState (buf : List UInt8) (i : Nat) : State :=
  ⟨false, .receive, 0, false, none, none, .sendx, buf, i, 0, []⟩

/-- `read(player, data, BUFSIZE)` at an offset. -/
def chunk (file : List UInt8) (pos : Nat) : List UInt8 := (file.drop pos).take BUFSIZE

def State.mainStep (file : List UInt8) (σ : State) : Option State :=
  match σ.main with
  | .receive => if σ.hello then some { σ with hello := false, main := .outer } else none
  | .outer => some { σ with main := if σ.ended then .final else .lseek }
  | .lseek => some { σ with pos := 0, main := .inner }
  | .inner => some { σ with main := if σ.ended then .outer else .read }
  | .read =>
    let data := chunk file σ.pos
    some { σ with
      pos := σ.pos + data.length, main := if data.length > 0 then .rpc data else .outer }
  | .rpc data => some { σ with request := some data, main := .rpcWait }
  -- `msg != i` is only reported
  | .rpcWait => σ.returned.map fun _ => { σ with returned := none, main := .inner }
  | .final => some { σ with request := some endRequest, main := .finalWait }
  | .finalWait => σ.returned.map fun _ => { σ with returned := none, main := .joined }
  | .joined => none

/-- A message copied to the buffer. -/
def overlay (buf data : List UInt8) : List UInt8 := data.take BUFSIZE ++ buf.drop data.length

def State.speakerStep (σ : State) : Option State :=
  match σ.speaker with
  | .sendx => some { σ with hello := true, speaker := .sent }
  | .sent => if σ.hello then none else some { σ with len := 0, speaker := .test }
  | .test =>
    some { σ with speaker := if σ.ended then .left else if σ.len ≠ 0 then .play else .evdrp }
  -- outside of the buffer there is no byte to pass
  | .play =>
    σ.buf[σ.i]?.map fun x =>
      { σ with played := σ.played ++ [x], i := σ.i + 1, len := σ.len - 1, speaker := .period }
  | .evdrp =>
    match σ.request with
    | some data =>
      some { σ with buf := overlay σ.buf data, i := data.length, speaker := .receive }
    | none => some { σ with speaker := .receive }
  | .receive =>
    match σ.request with
    | some data =>
      some { σ with
        buf := overlay σ.buf data, len := data.length, request := none, speaker := .reply }
    | none => some { σ with speaker := .period }
  | .reply => some { σ with returned := some σ.len, speaker := .check }
  | .check =>
    if σ.len = 4 ∧ σ.buf.take 4 = endRequest then some { σ with speaker := .left }
    else some { σ with i := 0, speaker := .period }
  | .period => some { σ with speaker := .test }
  | .left => none

def step (file : List UInt8) (σ : State) : Label → Option State
  | .sigint => some { σ with ended := true }
  | .main => σ.mainStep file
  | .speaker => σ.speakerStep

/-- The player of a file. -/
def player (file : List UInt8) : TSys State Label where
  init σ := ∃ buf i, buf.length = BUFSIZE ∧ σ = initState buf i
  next := step file

/-- What has been played is the beginning of the file, pass after pass; the speaker is in
its loop, and inside of its buffer when it plays. -/
structure State.Faithful (file : List UInt8) (σ : State) : Prop where
  played : ∃ passes, σ.played <+: (List.replicate passes file).flatten
  listening : σ.speaker ≠ .left
  inside : σ.speaker = .play → σ.i < σ.buf.length

/-- The last bytes of the file come alone, and they are those of the end request. -/
def EndsInRequest (file : List UInt8) : Prop :=
  file.length % BUFSIZE = 4 ∧ file.drop (file.length - 4) = endRequest

end RtaiDemos.Soundmsg
