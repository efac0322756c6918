import NetworkAccess.Library.ShortWrites
import NetworkAccess.Server.Replies

/-! No reply looks at what `write` returns, so the bytes on a non-blocking socket stay framed
exactly if nothing is transmitted behind a short write.
-/

namespace NetworkAccess

/-- A non-blocking socket: how many bytes each call of `write` may transmit, the first call being
0, and the calls so far.
-/
structure Link where
  takes : Nat → Nat
  offers : List (Offer UInt8)

namespace Link

/-- A link on which nothing was offered yet. -/
def fresh (takes : Nat → Nat) : Link := ⟨takes, []⟩

/-- One write offers its buffer, and the link takes as much of it as it takes at this position. -/
def write (_ : SOCKET) (buffer : Bytes) (link : Link) : Link := {
  link with
  offers := link.offers ++ [⟨buffer, link.takes link.offers.length⟩]
}

/-- What the peer receives. -/
def transmitted (link : Link) : Bytes := link.offers.flatMap Offer.sent

/-- The transmitted bytes, each with its place among all bytes that were given to `write`. -/
def placed (link : Link) : List (UInt8 × Nat) := (Offer.number 0 link.offers).flatMap Offer.sent

/-- The transmitted bytes are the beginning of `complete`, and they stand in their own places. -/
def Framed (link : Link) (complete : Bytes) : Prop :=
  link.transmitted <+: complete ∧ link.placed <+: complete.zipIdx

/-- The server with such a socket. -/
def host : Host Link := {
  genericMap := []
  customMap := []
  writeFunction := fun _ _ link => (true, link)
  write := write
}

end Link

/-- The calls of `write` for some buffers, the first of which is call `start`. -/
def offersFrom (takes : Nat → Nat) (start : Nat) (buffers : List Bytes) : List (Offer UInt8) :=
  (buffers.zipIdx start).map (fun buffer => ⟨buffer.1, takes buffer.2⟩)

/-- The buffers that are offered are those that were given, in order. -/
theorem offersFrom_buffers (takes : Nat → Nat) (start : Nat) (buffers : List Bytes)
    : (offersFrom takes start buffers).flatMap Offer.buffer = buffers.flatten := by
  induction buffers generalizing start with
  | nil => rfl
  | cons buffer rest ih =>
      have later := ih (start + 1)
      rw [offersFrom] at later ⊢
      rw [List.zipIdx_cons, List.map_cons, List.flatMap_cons, later, List.flatten_cons]

/-- Every call is recorded with the number of bytes it may transmit. -/
theorem Link.write_offers (socket : SOCKET) (buffers : List Bytes) (link : Link)
    : buffers.foldl (fun link buffer => Link.host.write socket buffer link) link
      = {
          link with
          offers := link.offers ++ offersFrom link.takes link.offers.length buffers
        } := by
  induction buffers generalizing link with
  | nil => simp [offersFrom]
  | cons buffer rest ih =>
      rw [List.foldl_cons, ih]
      simp [Link.host, Link.write, offersFrom, List.zipIdx_cons]

/-- The socket after a sequence of replies. -/
def sendReplies (socket : SOCKET) (takes : Nat → Nat) (replies : List Reply) : Link :=
  replies.foldl (fun link reply => reply.send Link.host socket link) (.fresh takes)

/-- Sending replies offers the buffers of their writes in order. -/
theorem sendReplies_offers (socket : SOCKET) (takes : Nat → Nat) (replies : List Reply)
    : (sendReplies socket takes replies).offers
      = offersFrom takes 0 (replies.flatMap Reply.writes) := by
  have calls : ∀ link : Link,
      replies.foldl (fun link reply => reply.send Link.host socket link) link
        = (replies.flatMap Reply.writes).foldl
          (fun link buffer => Link.host.write socket buffer link) link := by
    induction replies with
    | nil => exact fun _ => rfl
    | cons reply rest ih =>
        intro link
        rw [List.foldl_cons, ih, List.flatMap_cons, List.foldl_append, Reply.send_eq]
  rw [sendReplies, calls, Link.write_offers]
  rfl

/-- The writes of the replies make up their texts. -/
theorem replies_text (replies : List Reply)
    : (replies.flatMap Reply.writes).flatten = replies.flatMap Reply.text := by
  induction replies with
  | nil => rfl
  | cons reply rest ih =>
      rw [List.flatMap_cons, List.flatten_append, ih, List.flatMap_cons]
      rfl

/-- For every sequence of replies and every sequence of outcomes of `write`, the transmitted bytes
are a prefix of the complete replies, byte for byte in place, if and only if no call transmits
anything behind one that was short.
-/
theorem replies_framed_iff (socket : SOCKET) (takes : Nat → Nat) (replies : List Reply)
    : (sendReplies socket takes replies).Framed (replies.flatMap Reply.text)
      ↔ Offer.Settled (offersFrom takes 0 (replies.flatMap Reply.writes)) := by
  let link := sendReplies socket takes replies
  have offers := sendReplies_offers socket takes replies
  have complete : link.offers.flatMap Offer.buffer = replies.flatMap Reply.text := by
    rw [offers, offersFrom_buffers, replies_text]
  rw [← offers, ← Offer.inOrder_iff, ← complete]
  constructor
  · exact fun framed => framed.2
  · exact fun inOrder => ⟨inOrder.sent_starts, inOrder⟩

/-- Three bytes of data, of which the socket takes one, and the next reply. -/
theorem cutBlock_followed
    : ¬ ∀ socket takes replies,
        (sendReplies socket takes replies).transmitted <+: replies.flatMap Reply.text := by
  intro framed
  have cut := framed 4 (fun call => if call = 2 then 1 else 4)
    [.block [1, 2, 3] (by decide), .hash []]
  exact absurd cut (by decide)

end NetworkAccess
