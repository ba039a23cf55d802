import Cita.Evm.Types

/-!
# The framing of the network messages (`citaprotocol.rs`)

`CitaCodec` frames the messages `(key, body)` that the nodes exchange: an
eight-byte header `NETMSG_START + length_full` in network order, one byte
for the key's length, the key and the body. `pubsub_message_to_network_message`
writes a frame, `network_message_to_pubsub_message` reads one back as tokio's
`Decoder::decode`: `None` means that the buffer does not hold a frame yet.

A message whose key has 1 to 255 bytes and whose frame is shorter than
`2^32` bytes comes back whole, and a stream of such frames decodes to its
messages in order (`networkMessageToPubsubMessage_frame`,
`decodeFrames_frames`).

The encoder refuses nothing: it only logs a key longer than 255 bytes and
writes `length_key as u8`. The decoder consumes a frame before it rejects
an empty key, a key length beyond the payload, a key that is not UTF-8, or
an empty frame, and then returns `None` as if the frame were still
incomplete: the frames of an empty key, of a key of 256 bytes and of the
heartbeat message are swallowed (`networkMessageToPubsubMessage_drops_frames`).
-/

namespace Cita
namespace Network

/-- `NETMSG_START`, the magic word in the high half of a frame's header. -/
def netmsgStart : Nat := 0xDEADBEEF00000000

/-- `NetworkEndian::write_u64`. -/
def writeU64 (x : Nat) : Bytes := Word.toBytes x 8

/-- `NetworkEndian::read_u64` of the first eight bytes. -/
def readU64 (buf : Bytes) : Nat := Word.bytesValue (buf.take 8)

/-- `str::as_bytes`: the UTF-8 encoding of a string. -/
def strBytes (s : String) : Bytes := s.toUTF8.data.toList

/-- `str::from_utf8`. -/
def strFromUtf8 (b : Bytes) : Option String := String.fromUTF8? ⟨b.toArray⟩

/-- `pubsub_message_to_network_message`: the frame of a message appended to
the buffer. A key longer than 255 bytes and a payload of `2^32` bytes or more
are only logged: the key's length is written as `length_key as u8`, and the
payload's length is added to the magic word. -/
def pubsubMessageToNetworkMessage (buf : Bytes) (msg : Option (String × Bytes)) : Bytes :=
  match msg with
  | some (key, body) =>
      let lengthKey := key.utf8ByteSize
      let lengthFull := 1 + lengthKey + body.length
      let requestId := (netmsgStart + lengthFull) % 2 ^ 64
      buf ++ writeU64 requestId ++ [lengthKey.toUInt8] ++ strBytes key ++ body
  | none => buf ++ writeU64 netmsgStart

/-- `network_message_to_pubsub_message`: the message at the front of the
buffer, if any, and what is left of the buffer. -/
def networkMessageToPubsubMessage (buf : Bytes) : Option (String × Bytes) × Bytes :=
  if buf.length < 8 then (none, buf) else
  let requestId := readU64 buf
  let start := requestId &&& 0xffffffff00000000
  let lengthFull := requestId &&& 0x00000000ffffffff
  if start ≠ netmsgStart then (none, buf) else
  if lengthFull + 8 > buf.length then (none, buf) else
  let buf := buf.drop 8
  if lengthFull = 0 then (none, buf) else
  let payload := buf.take lengthFull
  let buf := buf.drop lengthFull
  -- `payload_buf[0]`: the payload holds `length_full ≥ 1` bytes
  let lengthKey := (payload.headD 0).toNat
  let payload := payload.drop 1
  if lengthKey = 0 then (none, buf) else
  if lengthKey > payload.length then (none, buf) else
  let keyBuf := payload.take lengthKey
  let payload := payload.drop lengthKey
  match strFromUtf8 keyBuf with
  | none => (none, buf)
  | some key => (some (key, payload), buf)

/-- The frames that `Framed` reads from a buffer: `decode` again after each
message, at most `n` times, until it returns `None`. -/
def decodeFrames : Nat → Bytes → List (String × Bytes) × Bytes
  | 0, buf => ([], buf)
  | n + 1, buf =>
      match networkMessageToPubsubMessage buf with
      | (some msg, buf) => ((decodeFrames n buf).1.cons msg, (decodeFrames n buf).2)
      | (none, buf) => ([], buf)

/-- The frame of one message. -/
def frame (key : String) (body : Bytes) : Bytes := pubsubMessageToNetworkMessage [] (some (key, body))

/-- A message whose frame holds what it says: a key of 1 to 255 bytes and a
payload length below `2^32`. -/
def Fits (key : String) (body : Bytes) : Prop :=
  0 < key.utf8ByteSize ∧ key.utf8ByteSize ≤ 255 ∧ 1 + key.utf8ByteSize + body.length < 2 ^ 32

theorem length_strBytes (s : String) : (strBytes s).length = s.utf8ByteSize := by
  simp [strBytes, String.size_toByteArray]

theorem strFromUtf8_strBytes (s : String) : strFromUtf8 (strBytes s) = some s := by
  simp only [strFromUtf8, strBytes, String.toUTF8_eq_toByteArray, Array.toArray_toList, String.fromUTF8?]
  exact dif_pos s.isValidUTF8

theorem readU64_writeU64 {x : Nat} (hx : x < 2 ^ 64) (rest : Bytes) : readU64 (writeU64 x ++ rest) = x := by
  have htake : (writeU64 x ++ rest).take 8 = writeU64 x := by
    rw [List.take_left' (by simp [writeU64])]
  rw [readU64, htake, writeU64, Word.bytesValue_toBytes]
  exact Nat.mod_eq_of_lt (by simpa using hx)

/-- A frame is its header, the key's length, the key and the payload. -/
theorem frame_eq {key : String} {body : Bytes} (hfit : Fits key body) :
    frame key body = writeU64 (2 ^ 32 * 0xDEADBEEF + (1 + key.utf8ByteSize + body.length)) ++
      (key.utf8ByteSize.toUInt8 :: (strBytes key ++ body)) := by
  obtain ⟨-, -, hlen⟩ := hfit
  have hrid : (netmsgStart + (1 + key.utf8ByteSize + body.length)) % 2 ^ 64 =
      2 ^ 32 * 0xDEADBEEF + (1 + key.utf8ByteSize + body.length) := by
    unfold netmsgStart
    omega
  simp only [frame, pubsubMessageToNetworkMessage]
  rw [hrid]
  simp

/-- The decoder takes back every frame that fits, and leaves what follows. -/
theorem networkMessageToPubsubMessage_frame {key : String} {body : Bytes} (hfit : Fits key body)
    (rest : Bytes) : networkMessageToPubsubMessage (frame key body ++ rest) = (some (key, body), rest) := by
  have hframe := frame_eq hfit
  obtain ⟨hk0, hk255, hlen⟩ := hfit
  have hread : readU64 (frame key body ++ rest) = 2 ^ 32 * 0xDEADBEEF + (1 + key.utf8ByteSize + body.length) := by
    rw [hframe, List.append_assoc]
    exact readU64_writeU64 (by omega) _
  have hstart : (2 ^ 32 * 0xDEADBEEF + (1 + key.utf8ByteSize + body.length)) &&& 0xffffffff00000000 = netmsgStart :=
    Word.land_high_mask (by decide) hlen
  have hfull : (2 ^ 32 * 0xDEADBEEF + (1 + key.utf8ByteSize + body.length)) &&& 0x00000000ffffffff =
      1 + key.utf8ByteSize + body.length := by
    rw [Word.land_low_mask]
    omega
  have hdrop : (frame key body ++ rest).drop 8 = key.utf8ByteSize.toUInt8 :: (strBytes key ++ body) ++ rest := by
    rw [hframe, List.append_assoc, List.drop_left' (by simp [writeU64])]
  have hlength : (frame key body ++ rest).length = 8 + (1 + key.utf8ByteSize + body.length) + rest.length := by
    rw [hframe]
    simp [writeU64, length_strBytes]
    omega
  have hpayload : (key.utf8ByteSize.toUInt8 :: (strBytes key ++ body) ++ rest).take
      (1 + key.utf8ByteSize + body.length) = key.utf8ByteSize.toUInt8 :: (strBytes key ++ body) := by
    rw [List.take_left' (by simp [length_strBytes]; omega)]
  have hrest : (key.utf8ByteSize.toUInt8 :: (strBytes key ++ body) ++ rest).drop
      (1 + key.utf8ByteSize + body.length) = rest := by
    rw [List.drop_left' (by simp [length_strBytes]; omega)]
  have hlk : key.utf8ByteSize.toUInt8.toNat = key.utf8ByteSize := by
    rw [Nat.toUInt8, UInt8.toNat_ofNat_of_lt' (by simp [UInt8.size]; omega)]
  have hkey : (strBytes key ++ body).take key.utf8ByteSize = strBytes key :=
    List.take_left' (length_strBytes key)
  have hbody : (strBytes key ++ body).drop key.utf8ByteSize = body :=
    List.drop_left' (length_strBytes key)
  unfold networkMessageToPubsubMessage
  simp only [hread, hstart, hfull, hlength, hdrop, hpayload, hrest, List.headD_cons, hlk,
    List.drop_one, List.tail_cons, hkey, hbody, strFromUtf8_strBytes]
  rw [if_neg (by omega), if_neg (by simp), if_neg (by omega), if_neg (by omega), if_neg (by omega),
    if_neg (by simp [length_strBytes])]

/-- A stream of frames that fit decodes to its messages, in order, and
leaves the bytes after them. -/
theorem decodeFrames_frames (msgs : List (String × Bytes)) (hfit : ∀ m ∈ msgs, Fits m.1 m.2)
    (rest : Bytes) :
    decodeFrames msgs.length ((msgs.map fun m => frame m.1 m.2).flatten ++ rest) = (msgs, rest) := by
  induction msgs with
  | nil => rfl
  | cons m msgs ih =>
      have hhead := networkMessageToPubsubMessage_frame (hfit m List.mem_cons_self)
        ((msgs.map fun m => frame m.1 m.2).flatten ++ rest)
      have htail := ih fun m hm => hfit m (List.mem_cons_of_mem _ hm)
      simp only [List.map_cons, List.flatten_cons, List.length_cons, List.append_assoc, decodeFrames,
        hhead, htail]

/-- A key of 256 bytes, whose length wraps to zero in its length byte. -/
def longKey : String := String.ofList (List.replicate 256 'a')

theorem networkMessageToPubsubMessage_drops_frames :
    pubsubMessageToNetworkMessage [] (some ("", [])) = [0xDE, 0xAD, 0xBE, 0xEF, 0, 0, 0, 1, 0] ∧
      networkMessageToPubsubMessage [0xDE, 0xAD, 0xBE, 0xEF, 0, 0, 0, 1, 0] = (none, []) ∧
      networkMessageToPubsubMessage (pubsubMessageToNetworkMessage [] (some (longKey, []))) = (none, []) ∧
      networkMessageToPubsubMessage (pubsubMessageToNetworkMessage [] none) = (none, []) := by
  refine ⟨by decide, by decide, by decide +kernel, by decide⟩

end Network
end Cita
