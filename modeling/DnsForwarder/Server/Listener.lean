import DnsForwarder.Server.Handler
import DnsForwarder.Transport.Stream

/-! How received bytes become requests, and how streams are cut into
messages. -/

namespace DnsForwarder.Server

open Message

variable {κ γ : Type}

def idOf? : Octets → Option UInt16
  | high :: low :: _ => some (wordOfBytes high low)
  | _ => none

/-- Handles received bytes. What cannot be decoded gets an error if it has an
id; responses get nothing. -/
def dispatch (box : QueryContext → γ) (engine : Engine (Party κ) γ)
    (server : Server) (now : Nat) (bytes : Octets) (responder : Responder) :
    Engine (Party κ) γ × Server × Except Error Unit :=
  match decode? bytes with
  | some request =>
      if request.header.isResponse then (engine, server, .ok ())
      else server.handle box engine now request responder
  | none =>
      match idOf? bytes with
      | none => (engine, server, .ok ())
      | some id =>
          let (server, result) :=
            server.sendError responder id query none Rcode.formErr
          (engine, server, result)

/-- The complete messages at the front of a stream. -/
def frames : (steps : Nat) → Octets → List Octets
  | 0, _ => []
  | steps + 1, stream =>
      match stream with
      | high :: low :: rest =>
          let size := (wordOfBytes high low).toNat
          let message := rest.take size
          if message.length = size then
            message :: frames steps (rest.drop size)
          else []
      | _ => []

theorem frames_frame {message : Octets}
    (hfits : message.length ≤ Transport.Stream.maxSize) (steps : Nat)
    (rest : Octets) :
    frames (steps + 1) (Transport.Stream.frame message ++ rest) =
      message :: frames steps rest := by
  have hsize : (UInt16.ofNat message.length).toNat = message.length := by
    rw [UInt16.toNat_ofNat']
    exact Nat.mod_eq_of_lt (Nat.lt_succ_of_le hfits)
  have hread := wordOfBytes_wordBytes (UInt16.ofNat message.length)
  rw [hsize] at hread
  simp [frames, Transport.Stream.frame, wordBytes, hread, hsize]

theorem frames_framed {messages : List Octets}
    (hfit : ∀ message ∈ messages,
      message.length ≤ Transport.Stream.maxSize) :
    frames messages.length (messages.flatMap Transport.Stream.frame) =
      messages := by
  induction messages with
  | nil => rfl
  | cons message messages ih =>
      obtain ⟨hfits, hrest⟩ := List.forall_mem_cons.mp hfit
      rw [List.flatMap_cons, List.length_cons, frames_frame hfits, ih hrest]

end DnsForwarder.Server
