import Mathlib.Data.List.Infix
import Mathlib.Tactic.Common

/-!
# Packet streams

Packets of one size behind a header, with gaps between them. A receiver looks for the
header and takes what follows. One that listens from a header on reads every packet,
whatever the packets hold. If no end of the header is a beginning of it and its last
symbol is found neither in the packets nor in the gaps, then a receiver may start to
listen anywhere.
-/

namespace Imperative

variable {α : Type}

structure Packet (α : Type) where
  payload : List α
  gap : List α

/-- The packet on the line. -/
def Packet.block (h : List α) (f : Packet α) : List α := h ++ (f.payload ++ f.gap)

def stream (h : List α) (fs : List (Packet α)) : List α := fs.flatMap (Packet.block h)

/-- The packets that begin at position `p` or later. -/
def packetsFrom (h : List α) : Nat → List (Packet α) → List (Packet α)
  | _, [] => []
  | 0, fs => fs
  | p, f :: fs => packetsFrom h (p - (f.block h).length) fs

/-- No end of the header is a beginning of it, apart from the header itself. -/
def Unbordered (h : List α) : Prop := ∀ k, 0 < k → k < h.length → ¬ h.take k <:+ h

instance [DecidableEq α] (h : List α) : Decidable (Unbordered h) :=
  decidable_of_iff (∀ k < h.length, 0 < k → ¬ h.take k <:+ h) <| by
    unfold Unbordered
    exact ⟨fun hall k hpos hlt => hall k hlt hpos, fun hall k hlt hpos => hall k hpos hlt⟩

/-- The receiver: at the header it takes a packet of `n` symbols, elsewhere it skips a
symbol. -/
def receive [DecidableEq α] (h : List α) (n : Nat) : List α → List (List α)
  | [] => []
  | x :: s =>
      if h <+: x :: s then
        ((x :: s).drop h.length).take n :: receive h n (s.drop (h.length - 1 + n))
      else receive h n s
termination_by s => s.length
decreasing_by all_goals simp only [List.length_cons, List.length_drop]; omega

section

variable {h h' : List α} {m : α} {n : Nat} {f : Packet α} {fs : List (Packet α)} {s t c : List α}

@[simp] theorem stream_cons : stream h (f :: fs) = f.block h ++ stream h fs := rfl

theorem packetsFrom_zero : packetsFrom h 0 fs = fs := by cases fs <;> rfl

theorem packetsFrom_cons {p : Nat} (hpos : 0 < p) :
    packetsFrom h p (f :: fs) = packetsFrom h (p - (f.block h).length) fs := by
  obtain ⟨p, rfl⟩ := Nat.exists_eq_succ_of_ne_zero hpos.ne'
  rfl

/-- A stream begins with a header, if it is not empty. -/
theorem prefix_stream (hinitial : s <+: stream h fs) (hlen : s.length ≤ h.length) (hs : s ≠ []) :
    s = h.take s.length := by
  cases fs with
  | nil => exact absurd (List.prefix_nil.mp hinitial) hs
  | cons f fs =>
      rw [stream_cons, Packet.block, List.append_assoc] at hinitial
      have htake := List.prefix_iff_eq_take.mp hinitial
      rwa [List.take_append_of_le_length hlen] at htake

/-- Behind its beginning a block holds no header. -/
theorem not_infix_block (hh : h = h' ++ [m]) (hm : m ∉ c) (hsuffix : t <:+ h ++ c)
    (hne : t.length < (h ++ c).length) : ¬ h <:+: t := by
  rintro ⟨before, after, rfl⟩
  obtain ⟨skipped, heq⟩ := hsuffix
  have hlen := congrArg List.length heq
  rw [List.length_append] at hlen
  -- the last symbol of that header comes later than the header's own
  have hsplit : h ++ c = (skipped ++ before ++ h') ++ (m :: after) := by
    rw [← heq, hh]
    simp
  have hh' := congrArg List.length hh
  rw [List.length_append, List.length_singleton] at hh'
  rcases List.append_eq_append_iff.mp hsplit with ⟨rest, -, hc⟩ | ⟨rest, hrest, hc⟩
  · apply hm
    rw [hc]
    simp
  · have hlen' := congrArg List.length hrest
    simp only [List.length_append] at hlen' hlen hne
    have hnil : rest = [] := List.eq_nil_of_length_eq_zero (by omega)
    rw [hnil, List.nil_append] at hc
    exact hm (hc ▸ List.mem_cons_self)

variable [DecidableEq α]

theorem receive_header (hne : h ≠ []) {payload : List α} (hn : payload.length = n) :
    receive h n (h ++ (payload ++ s)) = payload :: receive h n s := by
  obtain ⟨x, h', rfl⟩ := List.exists_cons_of_ne_nil hne
  have hdrop : (h' ++ (payload ++ s)).drop ((x :: h').length - 1 + n) = s := by
    rw [List.length_cons, Nat.add_sub_cancel, ← hn, ← List.append_assoc, ← List.length_append,
      List.drop_left]
  have hinitial : x :: h' <+: x :: (h' ++ (payload ++ s)) := List.prefix_append _ _
  rw [List.cons_append, receive, if_pos hinitial, hdrop, ← List.cons_append, List.drop_left, ← hn,
    List.take_left]

theorem receive_skip {x : α} (hnot : ¬ h <+: x :: s) : receive h n (x :: s) = receive h n s := by
  rw [receive, if_neg hnot]

/-- A part of the stream that holds no header is skipped. -/
theorem receive_append (hu : Unbordered h) (ht : ¬ h <:+: t) :
    receive h n (t ++ stream h fs) = receive h n (stream h fs) := by
  induction t with
  | nil => rfl
  | cons x t ih =>
      have htail : ¬ h <:+: t := fun hin => ht (hin.trans (List.suffix_cons x t).isInfix)
      rw [List.cons_append, receive_skip, ih htail]
      rw [← List.cons_append]
      intro hinitial
      rcases Nat.lt_or_ge (x :: t).length h.length with hshort | hlong
      · -- the header would begin here and end in the next one
        obtain ⟨rest, hrest⟩ := List.prefix_of_prefix_length_le (List.prefix_append _ _) hinitial
          hshort.le
        have hlen : h.length = (x :: t).length + rest.length := by
          rw [← hrest, List.length_append]
        have hboth : (x :: t) ++ rest <+: (x :: t) ++ stream h fs := by
          rw [hrest]
          exact hinitial
        have hstream : rest <+: stream h fs := (List.prefix_append_right_inj _).mp hboth
        have hpos : rest ≠ [] := by
          rintro rfl
          rw [List.length_nil] at hlen
          omega
        have htake := prefix_stream hstream (by omega) hpos
        refine hu rest.length (List.length_pos_of_ne_nil hpos) ?_ ?_
        · have hpos' : 0 < (x :: t).length := List.length_pos_of_ne_nil (List.cons_ne_nil x t)
          omega
        · rw [← htake]
          exact ⟨x :: t, hrest⟩
      · exact ht (List.prefix_of_prefix_length_le hinitial (List.prefix_append _ _) hlong).isInfix

/-- A receiver that listens from a header on reads all packets, whatever they hold. -/
theorem receive_stream (hu : Unbordered h) (hne : h ≠ []) (hn : ∀ f ∈ fs, f.payload.length = n)
    (hgap : ∀ f ∈ fs, ¬ h <:+: f.gap) : receive h n (stream h fs) = fs.map Packet.payload := by
  induction fs with
  | nil =>
      rw [stream, List.flatMap_nil, receive]
      rfl
  | cons f fs ih =>
      rw [List.forall_mem_cons] at hn hgap
      rw [stream_cons, Packet.block, List.append_assoc, List.append_assoc, receive_header hne hn.1,
        receive_append hu hgap.1, ih hn.2 hgap.2, List.map_cons]

/-- A receiver that begins to listen at any position reads the packets that begin
there or later, and nothing else. -/
theorem receive_drop_stream (hu : Unbordered h) (hh : h = h' ++ [m])
    (hn : ∀ f ∈ fs, f.payload.length = n) (hm : ∀ f ∈ fs, m ∉ f.payload ++ f.gap) (p : Nat) :
    receive h n ((stream h fs).drop p) = (packetsFrom h p fs).map Packet.payload := by
  induction fs generalizing p with
  | nil =>
      rw [stream, List.flatMap_nil, List.drop_nil, receive]
      cases p <;> rfl
  | cons f fs ih =>
      rw [List.forall_mem_cons] at hn hm
      have hfrom := ih hn.2 hm.2
      have hall := hfrom 0
      rw [List.drop_zero, packetsFrom_zero] at hall
      rcases Nat.eq_zero_or_pos p with rfl | hpos
      · have hgap : ¬ h <:+: f.gap := by
          intro hin
          refine hm.1 (List.mem_append_right _ (hin.subset ?_))
          rw [hh]
          simp
        rw [List.drop_zero, packetsFrom_zero, stream_cons, Packet.block, List.append_assoc,
          List.append_assoc, receive_header (by simp [hh]) hn.1, receive_append hu hgap, hall,
          List.map_cons]
      · rw [packetsFrom_cons hpos, stream_cons, List.drop_append]
        rcases Nat.lt_or_ge p (f.block h).length with hin | hbehind
        · rw [Nat.sub_eq_zero_of_le hin.le, List.drop_zero, packetsFrom_zero, ← hall]
          apply receive_append hu
          apply not_infix_block hh hm.1 (List.drop_suffix _ _)
          rw [List.length_drop]
          exact Nat.sub_lt (Nat.zero_lt_of_lt hin) hpos
        · rw [List.drop_eq_nil_of_le hbehind, List.nil_append]
          exact hfrom _

end

end Imperative
