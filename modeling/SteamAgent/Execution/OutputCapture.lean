import Mathlib.Data.List.DropRight
import SteamAgent.Execution.Errors
import SteamAgent.Stdlib.Text

/-!
# The captured output of a child

`_Stream` of `output_capture.py`: the first half of its limit is filled once,
and a deque of chunks behind it keeps the end of what came later.  The pipe,
the reader thread and the failure flag are left out: `drain` is the reader's
loop on the chunks that its reads returned.

There are three groups.

* The stream, with `append` and `text`.
* The deque.  `trim_spec` says what the trimming loop leaves of it.
* `Stream.Holds`, which links the stream to all that was read, the step lemma
  `Stream.Holds.append`, and the run lemma `drain_holds`.
-/

namespace SteamAgent.Execution

open Sha256 (Bytes)

/-! ## The stream -/

/-- The state of `_Stream`, on a limit. -/
structure Stream where
  headLimit : Nat
  tailLimit : Nat
  head : Bytes
  tail : List Bytes
  tailSize : Nat
  total : Nat

namespace Stream

/-- `_Stream(limit)`. -/
def new (limit : Nat) : Stream where
  headLimit := limit / 2
  tailLimit := limit - limit / 2
  head := []
  tail := []
  tailSize := 0
  total := 0

/-- The loop that trims the deque, on the deque and its size. -/
def trim (tailLimit : Nat) : List Bytes → Nat → Except Exn (List Bytes × Nat)
  | [], size => if size ≤ tailLimit then .ok ([], size) else .error (.other "IndexError")
  | first :: rest, size =>
    if size ≤ tailLimit then .ok (first :: rest, size)
    else
      let excess := size - tailLimit
      if first.length > excess then .ok (first.drop excess :: rest, size - excess)
      else trim tailLimit rest (size - first.length)

/-- `_append`. -/
def append (s : Stream) (data : Bytes) : Except Exn Stream := do
  let needed := s.headLimit - s.head.length
  let later := data.drop needed
  let tail := if later = [] then s.tail else s.tail ++ [later]
  let (tail, tailSize) ← trim s.tailLimit tail (s.tailSize + later.length)
  return { s with
    head := s.head ++ data.take needed, tail, tailSize, total := s.total + data.length }

/-- `separator`. -/
def separator : Bytes :=
  Text.encode "\n[output truncated]\n".toList

/-- The bytes that `text` decodes. -/
def kept (s : Stream) : Bytes :=
  s.head ++ (if s.total > s.headLimit + s.tailLimit then separator else []) ++ s.tail.flatten

/-- `text`. -/
def text (s : Stream) : List Char :=
  Text.decodeFrom .start s.kept

/-- The number of bytes in memory. -/
def held (s : Stream) : Nat :=
  s.head.length + s.tail.flatten.length

end Stream

/-- The loop of `_drain`, on what its reads return. -/
def drain (s : Stream) : List Bytes → Except Exn Stream
  | [] => .ok s
  | data :: reads => do drain (← s.append data) reads

/-! ## The deque -/

namespace Stream

/-- The loop drops bytes from the left until the limit is kept, and never pops
an empty deque. -/
theorem trim_spec (tailLimit : Nat) (tail : List Bytes) :
    ∃ tail', trim tailLimit tail tail.flatten.length = .ok (tail', tail'.flatten.length) ∧
      tail'.flatten = tail.flatten.rtake tailLimit := by
  induction tail with
  | nil => exact ⟨[], by simp [trim], by simp [List.rtake]⟩
  | cons first rest ih =>
    rw [trim]
    by_cases hfits : (first :: rest).flatten.length ≤ tailLimit
    · refine ⟨first :: rest, by rw [if_pos hfits], ?_⟩
      rw [List.rtake, Nat.sub_eq_zero_of_le hfits, List.drop_zero]
    · rw [if_neg hfits]
      have hlength : (first :: rest).flatten.length = first.length + rest.flatten.length := by simp
      by_cases hlong : first.length > (first :: rest).flatten.length - tailLimit
      · refine ⟨first.drop ((first :: rest).flatten.length - tailLimit) :: rest, ?_, ?_⟩
        · have hsize : (first :: rest).flatten.length -
              ((first :: rest).flatten.length - tailLimit) =
              (first.drop ((first :: rest).flatten.length - tailLimit) :: rest).flatten.length := by
            simp only [List.flatten_cons, List.length_append, List.length_drop] at hlong ⊢
            omega
          simp only [hlong, if_true, hsize]
        · rw [List.rtake, List.flatten_cons, List.flatten_cons, List.drop_append_of_le_length]
          rw [List.flatten_cons] at hlong
          omega
      · obtain ⟨tail', htrim, hkeep⟩ := ih
        refine ⟨tail', ?_, ?_⟩
        · have hsize : (first :: rest).flatten.length - first.length = rest.flatten.length := by
            omega
          simp only [hlong, if_false, hsize, htrim]
        · rw [hkeep, List.rtake, List.rtake, hlength, List.flatten_cons, List.drop_append]
          have hgone : first.drop (first.length + rest.flatten.length - tailLimit) = [] :=
            List.drop_eq_nil_of_le (by omega)
          rw [hgone, List.nil_append]
          congr 1
          omega

/-! ## What the stream holds -/

/-- The stream after the bytes `read` on a limit. -/
structure Holds (limit : Nat) (read : Bytes) (s : Stream) : Prop where
  headLimit : s.headLimit = limit / 2
  tailLimit : s.tailLimit = limit - limit / 2
  head : s.head = read.take (limit / 2)
  tail : s.tail.flatten = (read.drop (limit / 2)).rtake (limit - limit / 2)
  tailSize : s.tailSize = s.tail.flatten.length
  total : s.total = read.length

theorem Holds.new (limit : Nat) : Holds limit [] (Stream.new limit) :=
  ⟨rfl, rfl, by simp [Stream.new], by simp [Stream.new, List.rtake], rfl, rfl⟩

/-- The end of a text with more behind it needs the end of the text only. -/
theorem rtake_append_rtake (n : Nat) (xs ys : Bytes) :
    (xs.rtake n ++ ys).rtake n = (xs ++ ys).rtake n := by
  simp only [List.rtake, List.length_append, List.length_drop, List.drop_append, List.drop_drop]
  congr 1
  · by_cases hxs : xs.length ≤ n
    · congr 1
      omega
    · congr 1
      omega
  · congr 1
    omega

/-- One read keeps the link. -/
theorem Holds.append {limit : Nat} {read : Bytes} {s : Stream} (h : Holds limit read s)
    (data : Bytes) : ∃ s', s.append data = .ok s' ∧ Holds limit (read ++ data) s' := by
  have hneeded : s.headLimit - s.head.length = limit / 2 - read.length := by
    rw [h.headLimit, h.head, List.length_take]
    omega
  have hlater : (if data.drop (limit / 2 - read.length) = [] then s.tail
      else s.tail ++ [data.drop (limit / 2 - read.length)]).flatten =
      s.tail.flatten ++ data.drop (limit / 2 - read.length) := by
    by_cases hnone : data.drop (limit / 2 - read.length) = []
    · rw [if_pos hnone, hnone, List.append_nil]
    · rw [if_neg hnone, List.flatten_append]
      simp
  obtain ⟨tail', htrim, hkeep⟩ := trim_spec s.tailLimit
    (if data.drop (limit / 2 - read.length) = [] then s.tail
      else s.tail ++ [data.drop (limit / 2 - read.length)])
  rw [hlater, List.length_append, ← h.tailSize] at htrim
  refine ⟨_, by rw [Stream.append, hneeded]; simp only [htrim]; rfl, ?_⟩
  refine ⟨h.headLimit, h.tailLimit, ?_, ?_, rfl, ?_⟩
  · show s.head ++ data.take (limit / 2 - read.length) = (read ++ data).take (limit / 2)
    rw [h.head, List.take_append]
  · show tail'.flatten = _
    rw [hkeep, hlater, h.tail, h.tailLimit, rtake_append_rtake, List.drop_append]
  · show s.total + data.length = (read ++ data).length
    rw [h.total, List.length_append]

/-- What is in memory is within the limit. -/
theorem Holds.held {limit : Nat} {read : Bytes} {s : Stream} (h : Holds limit read s) :
    s.held ≤ limit := by
  rw [Stream.held, h.head, h.tail, List.rtake, List.length_take, List.length_drop,
    List.length_drop]
  omega

/-- The text of a stream is a function of what was read. -/
theorem Holds.kept {limit : Nat} {read : Bytes} {s : Stream} (h : Holds limit read s) :
    s.kept = if read.length ≤ limit then read
      else read.take (limit / 2) ++ separator ++ read.rtake (limit - limit / 2) := by
  have hlimit : limit / 2 + (limit - limit / 2) = limit := by omega
  rw [Stream.kept, h.head, h.tail, h.total, h.headLimit, h.tailLimit, hlimit]
  by_cases hshort : read.length ≤ limit
  · have hrest : (read.drop (limit / 2)).rtake (limit - limit / 2) = read.drop (limit / 2) := by
      rw [List.rtake, List.length_drop, Nat.sub_eq_zero_of_le (by omega), List.drop_zero]
    rw [if_pos hshort, if_neg (by omega), List.append_nil, hrest, List.take_append_drop]
  · have hend : (read.drop (limit / 2)).rtake (limit - limit / 2) =
        read.rtake (limit - limit / 2) := by
      rw [List.rtake, List.rtake, List.length_drop, List.drop_drop]
      congr 1
      omega
    rw [if_neg hshort, if_pos (by omega), hend]

end Stream

/-- The reads of a whole run keep the link. -/
theorem drain_holds {limit : Nat} (reads : List Bytes) : ∀ {read : Bytes} {s : Stream},
    s.Holds limit read → ∃ s', drain s reads = .ok s' ∧ s'.Holds limit (read ++ reads.flatten) := by
  induction reads with
  | nil =>
    intro read s h
    exact ⟨s, rfl, by simpa using h⟩
  | cons data reads ih =>
    intro read s h
    obtain ⟨s', happend, h'⟩ := h.append data
    obtain ⟨s'', hdrain, h''⟩ := ih h'
    refine ⟨s'', by rw [drain, happend]; exact hdrain, ?_⟩
    rwa [List.flatten_cons, ← List.append_assoc]

/-- Whatever chunks the reads return, no append fails, no more than the limit
is in memory after any of them, and the text depends on the bytes only. -/
theorem capture_chunking_independent (limit : Nat) (reads : List Bytes) :
    (∀ k, ∃ s, drain (.new limit) (reads.take k) = .ok s ∧ s.held ≤ limit) ∧
    ∃ s, drain (.new limit) reads = .ok s ∧
      s.text = Text.decodeFrom .start
        (if reads.flatten.length ≤ limit then reads.flatten
        else reads.flatten.take (limit / 2) ++ Stream.separator ++
          reads.flatten.drop (reads.flatten.length - (limit - limit / 2))) := by
  constructor
  · intro k
    obtain ⟨s, hdrain, hs⟩ := drain_holds (reads.take k) (Stream.Holds.new limit)
    exact ⟨s, hdrain, hs.held⟩
  · obtain ⟨s, hdrain, hs⟩ := drain_holds reads (Stream.Holds.new limit)
    refine ⟨s, hdrain, ?_⟩
    rw [Stream.text, hs.kept, List.nil_append]
    rfl

end SteamAgent.Execution
