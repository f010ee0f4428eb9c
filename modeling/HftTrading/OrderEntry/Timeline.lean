import HftTrading.OrderEntry.Socket
import Mathlib.Data.List.Basic

/-!
# Reading off a timeline

What the socket's reads take from a timeline without a reset. A blocking read of `n` bytes takes
the next `n` bytes whatever cuts and pauses stand before or between them, and so does a
non-blocking one if as many bytes are `ready`, that is, come before the next pause
(`recvLoop_of_available`). If fewer are, it raises and what was ready is gone, together with the
pause (`recvLoop_short`).

`recvMessage` is two such reads; `recvMessage_of_available` and `recvMessage_short` say the same of
a whole packet, of which the header is the first sixteen bytes.

## The vocabulary

Four functions say all that a read goes by: the bytes of a timeline, the timeline behind so many
bytes (`skip`), the number of bytes before the next pause (`ready`), and the timeline behind that
pause (`behind`). The first part is how they go together, so that two reads in a row are one of both
lengths. What a single `recv` does depends on cuts as well, but these four do not, and neither does
a loop of them.
-/

namespace HftTrading.OrderEntry

namespace Arrival

/-- The bytes of a timeline. -/
def bytesOf : List Arrival → List UInt8
  | [] => []
  | .byte b :: rest => b :: bytesOf rest
  | _ :: rest => bytesOf rest

/-- The bytes that come before the next pause, counted. -/
def ready : List Arrival → ℕ
  | .byte _ :: rest => ready rest + 1
  | .cut :: rest => ready rest
  | _ => 0

/-- The timeline behind the next `n` bytes. -/
def skip : ℕ → List Arrival → List Arrival
  | 0, incoming => incoming
  | _ + 1, [] => []
  | n + 1, .byte _ :: rest => skip n rest
  | n + 1, _ :: rest => skip (n + 1) rest

/-- The timeline behind the next pause. -/
def behind : List Arrival → List Arrival
  | .byte _ :: rest => behind rest
  | .cut :: rest => behind rest
  | .pause :: rest => rest
  | incoming => incoming

@[simp] theorem skip_zero (incoming : List Arrival) : skip 0 incoming = incoming := by
  cases incoming
  · rfl
  · rfl

theorem length_bytesOf_le (incoming : List Arrival) :
    (bytesOf incoming).length ≤ incoming.length := by
  induction incoming with
  | nil => exact Nat.le_refl 0
  | cons arrival rest ih =>
    cases arrival with
    | byte b => exact Nat.succ_le_succ ih
    | _ => exact Nat.le_succ_of_le ih

/-- No more bytes are ready than there are. -/
theorem ready_le_length_bytesOf (incoming : List Arrival) :
    ready incoming ≤ (bytesOf incoming).length := by
  induction incoming with
  | nil => exact Nat.le_refl 0
  | cons arrival rest ih =>
    cases arrival with
    | byte b => exact Nat.succ_le_succ ih
    | cut => exact ih
    | _ => exact Nat.zero_le _

theorem skip_skip (n m : ℕ) (incoming : List Arrival) :
    skip m (skip n incoming) = skip (n + m) incoming := by
  induction incoming generalizing n with
  | nil =>
    rcases n with - | n
    · rw [skip, Nat.zero_add]
    · rcases m with - | m
      · rfl
      · rw [skip, Nat.succ_add]
        rfl
  | cons arrival rest ih =>
    rcases n with - | n
    · rw [skip, Nat.zero_add]
    · cases arrival with
      | byte b =>
        rw [skip, ih, Nat.succ_add]
        rfl
      | _ =>
        have h := ih (n + 1)
        rw [Nat.succ_add] at h ⊢
        exact h

theorem bytesOf_skip (n : ℕ) (incoming : List Arrival) :
    bytesOf (skip n incoming) = (bytesOf incoming).drop n := by
  induction incoming generalizing n with
  | nil =>
    rcases n with - | n
    · rfl
    · rfl
  | cons arrival rest ih =>
    rcases n with - | n
    · rfl
    · cases arrival with
      | byte b => exact ih n
      | _ => exact ih (n + 1)

/-- Each byte skipped is an arrival less. -/
theorem length_skip_le (n : ℕ) (incoming : List Arrival) :
    (skip n incoming).length ≤ incoming.length - n := by
  induction incoming generalizing n with
  | nil =>
    rcases n with - | n
    · exact Nat.le_refl _
    · exact Nat.zero_le _
  | cons arrival rest ih =>
    rcases n with - | n
    · exact Nat.le_refl _
    · cases arrival with
      | byte b =>
        have h := ih n
        show (skip n rest).length ≤ rest.length + 1 - (n + 1)
        omega
      | _ =>
        have h := ih (n + 1)
        show (skip (n + 1) rest).length ≤ rest.length + 1 - (n + 1)
        omega

theorem mem_of_mem_skip {n : ℕ} {incoming : List Arrival} {arrival : Arrival}
    (h : arrival ∈ skip n incoming) : arrival ∈ incoming := by
  induction incoming generalizing n with
  | nil =>
    rcases n with - | n
    · exact h
    · exact h
  | cons first rest ih =>
    rcases n with - | n
    · exact h
    · cases first with
      | byte b => exact List.mem_cons_of_mem _ (ih (n := n) h)
      | _ => exact List.mem_cons_of_mem _ (ih (n := n + 1) h)

theorem mem_of_mem_behind {incoming : List Arrival} {arrival : Arrival}
    (h : arrival ∈ behind incoming) : arrival ∈ incoming := by
  induction incoming with
  | nil => exact h
  | cons first rest ih =>
    cases first with
    | byte b => exact List.mem_cons_of_mem _ (ih h)
    | cut => exact List.mem_cons_of_mem _ (ih h)
    | pause => exact List.mem_cons_of_mem _ h
    | reset => exact h

/-- What is ready comes first; behind the pause it is gone. -/
theorem bytesOf_behind {incoming : List Arrival} (hreset : .reset ∉ incoming) :
    bytesOf (behind incoming) = (bytesOf incoming).drop (ready incoming) := by
  induction incoming with
  | nil => rfl
  | cons arrival rest ih =>
    cases arrival with
    | byte b => exact ih fun h ↦ hreset (List.mem_cons_of_mem _ h)
    | cut => exact ih fun h ↦ hreset (List.mem_cons_of_mem _ h)
    | pause => rfl
    | reset => exact absurd List.mem_cons_self hreset

theorem ready_skip {incoming : List Arrival} {n : ℕ} (h : n ≤ ready incoming) :
    ready (skip n incoming) = ready incoming - n := by
  induction incoming generalizing n with
  | nil =>
    rcases n with - | n
    · rfl
    · exact (Nat.zero_sub _).symm
  | cons arrival rest ih =>
    rcases n with - | n
    · rfl
    · cases arrival with
      | byte b =>
        have hrest := ih (Nat.le_of_succ_le_succ h)
        show ready (skip n rest) = ready rest + 1 - (n + 1)
        omega
      | cut => exact ih h
      | _ => exact absurd h (Nat.not_succ_le_zero n)

theorem behind_skip {incoming : List Arrival} {n : ℕ} (h : n ≤ ready incoming) :
    behind (skip n incoming) = behind incoming := by
  induction incoming generalizing n with
  | nil =>
    rcases n with - | n
    · rfl
    · rfl
  | cons arrival rest ih =>
    rcases n with - | n
    · rfl
    · cases arrival with
      | byte b => exact ih (Nat.le_of_succ_le_succ h)
      | cut => exact ih h
      | _ => exact absurd h (Nat.not_succ_le_zero n)

end Arrival

open Arrival

namespace Socket

/-! ### What a read meets -/

theorem skip_arrived (n : ℕ) (blocking : Bool) (incoming : List Arrival) :
    skip (n + 1) (arrived blocking incoming) = skip (n + 1) incoming := by
  induction incoming with
  | nil => rfl
  | cons arrival rest ih =>
    cases arrival with
    | cut => exact ih
    | pause =>
      cases blocking
      · rfl
      · exact ih
    | _ => rfl

theorem bytesOf_arrived (blocking : Bool) (incoming : List Arrival) :
    bytesOf (arrived blocking incoming) = bytesOf incoming := by
  induction incoming with
  | nil => rfl
  | cons arrival rest ih =>
    cases arrival with
    | cut => exact ih
    | pause =>
      cases blocking
      · rfl
      · exact ih
    | _ => rfl

/-- Behind the cuts in front, as many bytes are ready. -/
theorem ready_arrived (incoming : List Arrival) :
    ready (arrived false incoming) = ready incoming := by
  induction incoming with
  | nil => rfl
  | cons arrival rest ih =>
    cases arrival with
    | cut => exact ih
    | _ => rfl

/-- Without blocking: nothing if the stream has ended, a pause, or a byte. -/
theorem arrived_false {incoming : List Arrival} (hreset : .reset ∉ incoming) :
    (ready incoming = 0 ∧
      (arrived false incoming = [] ∧ behind incoming = [] ∨
        arrived false incoming = .pause :: behind incoming)) ∨
      0 < ready incoming ∧ ∃ b rest, arrived false incoming = .byte b :: rest := by
  induction incoming with
  | nil => exact Or.inl ⟨rfl, Or.inl ⟨rfl, rfl⟩⟩
  | cons arrival rest ih =>
    cases arrival with
    | byte b => exact Or.inr ⟨Nat.zero_lt_succ _, b, rest, rfl⟩
    | cut => exact ih fun h ↦ hreset (List.mem_cons_of_mem _ h)
    | pause => exact Or.inl ⟨rfl, Or.inr rfl⟩
    | reset => exact absurd List.mem_cons_self hreset

/-- Waiting: there is a byte, if there is ever going to be one. -/
theorem arrived_true {incoming : List Arrival} (hreset : .reset ∉ incoming) :
    (bytesOf incoming = [] ∧ arrived true incoming = []) ∨
      ∃ b rest, arrived true incoming = .byte b :: rest := by
  induction incoming with
  | nil => exact Or.inl ⟨rfl, rfl⟩
  | cons arrival rest ih =>
    cases arrival with
    | byte b => exact Or.inr ⟨b, rest, rfl⟩
    | reset => exact absurd List.mem_cons_self hreset
    | _ => exact ih fun h ↦ hreset (List.mem_cons_of_mem _ h)

/-- A read of at most `n + 1` bytes that starts with a byte takes that byte, and perhaps more. -/
theorem takeBytes_byte (n : ℕ) (b : UInt8) (rest : List Arrival) :
    ∃ k, 0 < k ∧ k ≤ n + 1 ∧ k ≤ ready (.byte b :: rest) ∧
      takeBytes (n + 1) (.byte b :: rest) =
        ((bytesOf (.byte b :: rest)).take k, skip k (.byte b :: rest)) := by
  induction rest generalizing n b with
  | nil =>
    refine ⟨1, Nat.one_pos, Nat.le_add_left 1 n, Nat.le_refl 1, ?_⟩
    rcases n with - | n
    · rfl
    · rfl
  | cons arrival rest ih =>
    rcases n with - | n
    · refine ⟨1, Nat.one_pos, Nat.le_refl 1, Nat.le_add_left 1 _, ?_⟩
      rfl
    · cases arrival with
      | byte b' =>
        obtain ⟨k, hk, hkn, hkr, htake⟩ := ih n b'
        refine ⟨k + 1, Nat.succ_pos k, Nat.succ_le_succ hkn, Nat.succ_le_succ hkr, ?_⟩
        rw [takeBytes, htake]
        rfl
      | _ =>
        refine ⟨1, Nat.one_pos, Nat.le_add_left 1 _, Nat.le_add_left 1 _, ?_⟩
        rfl

/-- **A read that meets a byte** returns some of the bytes to come, at least one. -/
theorem recvInto_byte {s : Socket} {b : UInt8} {rest : List Arrival}
    (harrived : arrived s.blocking s.incoming = .byte b :: rest) {n : ℕ} (hn : 0 < n) :
    ∃ k, 0 < k ∧ k ≤ n ∧ k ≤ (bytesOf s.incoming).length ∧
      (s.blocking = false → k ≤ ready s.incoming) ∧
      recvInto n s =
        .ok ((bytesOf s.incoming).take k) { s with incoming := skip k s.incoming } := by
  obtain ⟨n, rfl⟩ : ∃ m, n = m + 1 := ⟨n - 1, by omega⟩
  obtain ⟨k, hk, hkn, hkr, htake⟩ := takeBytes_byte n b rest
  have hbytes := bytesOf_arrived s.blocking s.incoming
  have hskip := skip_arrived (k - 1) s.blocking s.incoming
  rw [harrived] at hbytes hskip
  rw [show k - 1 + 1 = k by omega] at hskip
  refine ⟨k, hk, hkn, ?_, fun hblocking ↦ ?_, ?_⟩
  · rw [← hbytes]
    exact Nat.le_trans hkr (ready_le_length_bytesOf _)
  · rw [hblocking] at harrived
    rwa [← ready_arrived, harrived]
  · unfold recvInto
    rw [harrived, ← hbytes, ← hskip]
    show EStateM.Result.ok (takeBytes (n + 1) (.byte b :: rest)).1
      { s with incoming := (takeBytes (n + 1) (.byte b :: rest)).2 } = _
    rw [htake]

/-- So many bytes are to come and, unless the socket blocks, are there. -/
structure Available (n : ℕ) (s : Socket) : Prop where
  le_length : n ≤ (bytesOf s.incoming).length
  le_ready : s.blocking = false → n ≤ ready s.incoming

theorem Available.mono {n m : ℕ} {s : Socket} (h : Available n s) (hm : m ≤ n) : Available m s :=
  ⟨Nat.le_trans hm h.le_length, fun hblocking ↦ Nat.le_trans hm (h.le_ready hblocking)⟩

/-- What is left of what is available once some of it has been read. -/
theorem Available.skip {n k : ℕ} {s : Socket} (h : Available n s) (hk : k ≤ n) :
    Available (n - k) { s with incoming := skip k s.incoming } := by
  constructor
  · have hlength := h.le_length
    dsimp only
    rw [bytesOf_skip, List.length_drop]
    omega
  · intro hblocking
    have hready := h.le_ready hblocking
    dsimp only
    rw [ready_skip (Nat.le_trans hk hready)]
    omega

/-- Where bytes are available, a read meets one. -/
theorem Available.arrived {n : ℕ} {s : Socket} (h : Available (n + 1) s)
    (hreset : .reset ∉ s.incoming) :
    ∃ b rest, arrived s.blocking s.incoming = .byte b :: rest := by
  rcases hblocking : s.blocking with - | -
  · have hready := h.le_ready hblocking
    rcases arrived_false hreset with ⟨hzero, -⟩ | ⟨-, hbyte⟩
    · omega
    · exact hbyte
  · have hlength := h.le_length
    rcases arrived_true hreset with ⟨hnil, -⟩ | hbyte
    · rw [hnil] at hlength
      exact absurd hlength (Nat.not_succ_le_zero n)
    · exact hbyte

theorem recvLoop_zero (iterations : ℕ) (buf : List UInt8) (s : Socket) :
    recvLoop iterations 0 buf s = .ok buf s := by
  rcases iterations with - | iterations
  · rfl
  · rfl

/-- **What is available is read**, however many reads it takes. -/
theorem recvLoop_of_available {s : Socket} (hreset : .reset ∉ s.incoming) {iterations missing : ℕ}
    (hmissing : missing ≤ iterations) (h : Available missing s) (buf : List UInt8) :
    recvLoop iterations missing buf s =
      .ok (buf ++ (bytesOf s.incoming).take missing)
        { s with incoming := skip missing s.incoming } := by
  induction iterations generalizing s missing buf with
  | zero =>
    obtain rfl := Nat.le_zero.1 hmissing
    rw [List.take_zero, List.append_nil, skip_zero, recvLoop_zero]
  | succ iterations ih =>
    rcases missing with - | missing
    · rw [List.take_zero, List.append_nil, skip_zero, recvLoop_zero]
    obtain ⟨b, rest, harrived⟩ := h.arrived hreset
    obtain ⟨k, hk, hkn, hkl, -, hread⟩ := recvInto_byte harrived (Nat.zero_lt_succ missing)
    have hlength : ((bytesOf s.incoming).take k).length = k := by
      rw [List.length_take, Nat.min_eq_left hkl]
    rw [recvLoop, if_neg (Nat.succ_ne_zero missing), Method.bind_ok hread,
      if_neg (List.ne_nil_of_length_pos (by omega)), hlength]
    have hfewer : missing + 1 - k ≤ iterations := by omega
    have hrest := ih (s := { s with incoming := Arrival.skip k s.incoming })
      (fun hmem ↦ hreset (mem_of_mem_skip hmem)) hfewer (h.skip hkn)
      (buf ++ (bytesOf s.incoming).take k)
    rw [hrest]
    dsimp only
    rw [skip_skip, bytesOf_skip, List.append_assoc, ← List.take_add, Nat.add_sub_cancel' hkn]

/-- **If fewer bytes are ready than asked for**, a read that does not wait raises, and what was
ready is gone. -/
theorem recvLoop_short {s : Socket} (hblocking : s.blocking = false)
    (hreset : .reset ∉ s.incoming) {iterations missing : ℕ} (hmissing : missing ≤ iterations)
    (hready : ready s.incoming < missing) (buf : List UInt8) :
    ∃ e : OeError, e.isSocketError = true ∧
      recvLoop iterations missing buf s = .error e { s with incoming := behind s.incoming } := by
  induction iterations generalizing s missing buf with
  | zero => omega
  | succ iterations ih =>
    rw [recvLoop, if_neg (Nat.ne_of_gt (Nat.zero_lt_of_lt hready))]
    rcases arrived_false hreset with ⟨-, ⟨hnil, hbehind⟩ | hpause⟩ | ⟨-, b, rest, hbyte⟩
    -- the stream has ended
    · refine ⟨.brokenConnection, rfl, ?_⟩
      have hread : recvInto missing s = .ok [] { s with incoming := [] } := by
        unfold recvInto
        rw [hblocking, hnil]
      rw [Method.bind_ok hread, if_pos rfl, hbehind]
      rfl
    · refine ⟨.wouldBlock, rfl, Method.bind_error ?_⟩
      unfold recvInto
      rw [hblocking, hpause]
    · obtain ⟨k, hk, hkn, hkl, hkr, hread⟩ :=
        recvInto_byte (s := s) (hblocking ▸ hbyte) (Nat.zero_lt_of_lt hready)
      have hlength : ((bytesOf s.incoming).take k).length = k := by
        rw [List.length_take, Nat.min_eq_left hkl]
      rw [Method.bind_ok hread, if_neg (List.ne_nil_of_length_pos (by omega)), hlength]
      have hkready := hkr hblocking
      have hrest := ready_skip hkready
      have hfewer : missing - k ≤ iterations := by omega
      obtain ⟨e, he, hloop⟩ := ih (s := { s with incoming := Arrival.skip k s.incoming })
        hblocking (fun hmem ↦ hreset (mem_of_mem_skip hmem)) hfewer
        (by
          dsimp only
          omega)
        (buf ++ (bytesOf s.incoming).take k)
      refine ⟨e, he, hloop.trans ?_⟩
      dsimp only
      rw [behind_skip hkready]

/-! ### Whole packets -/

/-- A packet's announced length is its length. -/
structure Sized (data : List UInt8) : Prop where
  totalLength_eq : totalLength data = data.length
  header_le : RESP_HDR_SIZE ≤ data.length

/-- The length stands in the first sixteen bytes. -/
theorem Sized.totalLength_take {data : List UInt8} (h : Sized data) :
    totalLength (data.take RESP_HDR_SIZE) = data.length := by
  rw [← h.totalLength_eq, totalLength, totalLength, List.take_take]
  rfl

/-- The header of a packet, read. -/
theorem recvExact_header {s : Socket} {data rest : List UInt8} (h : Sized data)
    (hreset : .reset ∉ s.incoming) (hbytes : bytesOf s.incoming = data ++ rest)
    (havailable : Available RESP_HDR_SIZE s) :
    recvExact RESP_HDR_SIZE s = .ok (data.take RESP_HDR_SIZE)
      { s with incoming := Arrival.skip RESP_HDR_SIZE s.incoming } := by
  refine (recvLoop_of_available hreset (Nat.le_refl _) havailable []).trans ?_
  rw [List.nil_append, hbytes, List.take_append_of_le_length h.header_le]

/-- **A packet that is available is read whole.** -/
theorem recvMessage_of_available {s : Socket} {data rest : List UInt8} (h : Sized data)
    (hreset : .reset ∉ s.incoming) (hbytes : bytesOf s.incoming = data ++ rest)
    (havailable : Available data.length s) :
    recvMessage s = .ok data { s with incoming := Arrival.skip data.length s.incoming } := by
  have hle := h.header_le
  have hheader := recvExact_header h hreset hbytes (havailable.mono hle)
  have hbody : recvExact (data.length - RESP_HDR_SIZE)
      { s with incoming := Arrival.skip RESP_HDR_SIZE s.incoming } =
      .ok (data.drop RESP_HDR_SIZE)
        { s with incoming := Arrival.skip data.length s.incoming } := by
    refine (recvLoop_of_available (fun hmem ↦ hreset (mem_of_mem_skip hmem)) (Nat.le_refl _)
      (havailable.skip hle) []).trans ?_
    dsimp only
    rw [List.nil_append, skip_skip, bytesOf_skip, hbytes, List.drop_append_of_le_length hle,
      List.take_append_of_le_length (Nat.le_of_eq List.length_drop.symm), ← List.length_drop,
      List.take_length, List.length_drop, Nat.add_sub_cancel' hle]
  unfold recvMessage
  rw [Method.bind_ok hheader, h.totalLength_take, if_neg (Nat.not_lt.2 hle)]
  split
  · rename_i heq
    rw [← heq, List.take_length]
    rfl
  · rw [Method.bind_ok hbody]
    show EStateM.Result.ok (data.take RESP_HDR_SIZE ++ data.drop RESP_HDR_SIZE) _ = _
    rw [List.take_append_drop]

/-- **A packet that is not ready is torn**: reading it without blocking raises, and the part that
was ready is gone. -/
theorem recvMessage_short {s : Socket} (hblocking : s.blocking = false)
    (hreset : .reset ∉ s.incoming)
    (hready : ready s.incoming < RESP_HDR_SIZE ∨ ∃ data rest, Sized data ∧
      bytesOf s.incoming = data ++ rest ∧ ready s.incoming < data.length) :
    ∃ e : OeError, e.isSocketError = true ∧
      recvMessage s = .error e { s with incoming := behind s.incoming } := by
  by_cases hheader : ready s.incoming < RESP_HDR_SIZE
  · obtain ⟨e, he, hloop⟩ := recvLoop_short hblocking hreset (Nat.le_refl _) hheader []
    exact ⟨e, he, Method.bind_error hloop⟩
  · obtain ⟨data, rest, h, hbytes, hlt⟩ := hready.resolve_left hheader
    have hle := h.header_le
    have hge := Nat.not_lt.1 hheader
    have havailable : Available RESP_HDR_SIZE s :=
      ⟨Nat.le_trans hge (ready_le_length_bytesOf _), fun _ ↦ hge⟩
    obtain ⟨e, he, hloop⟩ := recvLoop_short
      (s := { s with incoming := Arrival.skip RESP_HDR_SIZE s.incoming }) hblocking
      (fun hmem ↦ hreset (mem_of_mem_skip hmem))
      (Nat.le_refl (data.length - RESP_HDR_SIZE))
      (by
        dsimp only
        rw [ready_skip hge]
        omega) []
    refine ⟨e, he, ?_⟩
    unfold recvMessage
    rw [Method.bind_ok (recvExact_header h hreset hbytes havailable), h.totalLength_take,
      if_neg (Nat.not_lt.2 hle), if_neg (by omega)]
    refine (Method.bind_error hloop).trans ?_
    dsimp only
    rw [behind_skip hge]

/-- With no byte to come, a read that waits finds the connection closed. -/
theorem recvMessage_end {s : Socket} (hblocking : s.blocking = true)
    (hreset : .reset ∉ s.incoming) (hbytes : bytesOf s.incoming = []) :
    recvMessage s = .error .brokenConnection { s with incoming := [] } := by
  have hread : recvInto RESP_HDR_SIZE s = .ok [] { s with incoming := [] } := by
    unfold recvInto
    rw [hblocking]
    rcases arrived_true hreset with ⟨-, hnil⟩ | ⟨b, rest, hbyte⟩
    · rw [hnil]
    · have hempty := bytesOf_arrived true s.incoming
      rw [hbyte, hbytes] at hempty
      cases hempty
  have hloop : recvExact RESP_HDR_SIZE s = .error .brokenConnection { s with incoming := [] } := by
    show recvLoop (15 + 1) RESP_HDR_SIZE [] s = _
    rw [recvLoop, if_neg (by decide), Method.bind_ok hread, if_pos rfl]
    rfl
  exact Method.bind_error hloop

end Socket

end HftTrading.OrderEntry
