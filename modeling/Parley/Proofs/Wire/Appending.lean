import Mathlib.Tactic.Lemma
import Parley.Proofs.Wire.RoundTrip

/-!
# Frames appended to a buffer

Frames are encoded behind what a buffer holds already, and nothing of that is touched. A frame that
can be encoded goes in whole, and one whose body is refused leaves no trace; only a body that is too
long for a header stays, behind the room that was made for the header. Main statement:
`Frame.appendAll_eq`.
-/

namespace Parley

namespace Frame

def body (f : Frame) : Bytes := ((f.message.write f.version).runOn []).2

/-- What an attempt to append a frame leaves in a buffer: the octets of the frame, or nothing. Of a
frame whose body is too long there stay the room for its header and the body. -/
def imprint (f : Frame) : Bytes :=
  match f.encode with
  | .ok octets => octets
  | .error (.frameTooLarge ..) => List.replicate Header.size 0 ++ f.body
  | .error _ => []

/-- Appends frames one after another, and goes on behind one that cannot be encoded. -/
def appendAll (buffer : Bytes) : List Frame → List (Except Error Unit) × Bytes
  | [] => ([], buffer)
  | f :: fs =>
    let (result, buffer) := f.encodeInto buffer
    let (results, buffer) := appendAll buffer fs
    (result :: results, buffer)

/-- Why a frame cannot be encoded. -/
inductive Unencodable (f : Frame) : Error → Prop
  | field (auth : AuthToken) (name s : String) (hmessage : f.message = .authToken auth)
    (hfield : name = "token" ∧ s = auth.token ∨ name = "device_id" ∧ s = auth.deviceId)
    (hlong : AuthToken.maxField < (Bytes.ofString s).length) :
    Unencodable f (.authFieldTooLong name (Bytes.ofString s).length)
  | uids (s : Subscription) (hmessage : f.message = .subscribePresence s)
    (hmany : Subscription.maxUids < s.uids.length) :
    Unencodable f (.malformed "subscribe_presence" .tooManyUids)
  | overlong (hlong : maxBodyLen < f.body.length) :
    Unencodable f (.frameTooLarge f.body.length maxBodyLen)

variable {f : Frame} {e : Error}

lemma body_of_writes {body : Bytes} (h : (f.message.write f.version).Writes body) :
    f.body = body := by
  rw [Frame.body, h [], List.nil_append]

lemma encodeInto_of_overlong {body : Bytes} (h : (f.message.write f.version).Writes body)
    (hlong : maxBodyLen < body.length) (buffer : Bytes) :
    f.encodeInto buffer = (.error (.frameTooLarge body.length maxBodyLen),
      buffer ++ (List.replicate Header.size 0 ++ body)) := by
  rcases f.encodeInto_cases with ⟨body', hbody', hfits, -⟩ | ⟨body', hbody', -, hinto⟩ |
    ⟨e, -, hrefuses, -⟩
  · rw [h.unique hbody'] at hlong
    omega
  · rw [hinto, h.unique hbody']
  · exact absurd hrefuses h.not_refuses

lemma unencodable_of_refuses (h : (f.message.write f.version).Refuses e) : f.Unencodable e := by
  -- there is one error that a body can be refused for
  have hunique {e' : Error} (h' : (f.message.write f.version).Refuses e') : e = e' := by
    obtain ⟨more, hmore⟩ := h []
    obtain ⟨more', hmore'⟩ := h' []
    rw [hmore] at hmore'
    cases hmore'
    rfl
  obtain ⟨seq, version, flags, message⟩ := f
  cases message with
  | authToken auth =>
    rcases auth.write_cases with ⟨-, -, hwrites⟩ | ⟨name, s, hfield, hlong, hrefuses⟩
    · exact absurd h hwrites.not_refuses
    · rw [hunique hrefuses]
      exact .field auth name s rfl hfield hlong
  | subscribePresence s =>
    rcases s.write_cases with ⟨-, hwrites⟩ | ⟨hmany, hrefuses⟩
    · exact absurd h hwrites.not_refuses
    · rw [hunique hrefuses]
      exact .uids s rfl hmany
  | signal kind =>
    obtain ⟨more, hmore⟩ := h []
    cases hmore
  | _ => exact absurd h (Writing.writes_append _).not_refuses

/-- What was in the buffer stays, whatever becomes of the frame. -/
theorem encodeInto_eq (f : Frame) (buffer : Bytes) :
    f.encodeInto buffer = (f.encode.map fun _ => (), buffer ++ f.imprint) := by
  rcases f.encodeInto_cases with ⟨body, hbody, hfits, hinto⟩ | ⟨body, hbody, hlong, hinto⟩ |
    ⟨e, htransport, hrefuses, hinto⟩
  · have hencode := encode_eq_ok_iff.mpr ⟨body, hbody, hfits, rfl⟩
    rw [hinto, imprint, hencode]
    rfl
  · have hencode : f.encode = .error (.frameTooLarge body.length maxBodyLen) := by
      rw [encode, hinto]
    rw [hinto, imprint, hencode, body_of_writes hbody]
    rfl
  · have hencode := encode_of_refuses hrefuses
    have himprint : f.imprint = [] := by
      rw [imprint, hencode]
      cases e with
      | frameTooLarge len max => cases htransport
      | _ => rfl
    rw [hinto, himprint, hencode, List.append_nil]
    rfl

lemma encode_cases (f : Frame) :
    (∃ octets, f.encode = .ok octets) ∨ ∃ e, f.encode = .error e ∧ f.Unencodable e := by
  rcases f.encodeInto_cases with ⟨body, hbody, hfits, -⟩ | ⟨body, hbody, hlong, hinto⟩ |
    ⟨e, -, hrefuses, -⟩
  · exact .inl ⟨_, encode_eq_ok_iff.mpr ⟨body, hbody, hfits, rfl⟩⟩
  · obtain rfl := body_of_writes hbody
    exact .inr ⟨_, by rw [encode, hinto], .overlong hlong⟩
  · exact .inr ⟨e, encode_of_refuses hrefuses, unencodable_of_refuses hrefuses⟩

/-- Frames that are appended to a buffer, one after another, come to lie behind what it held. Each
is met by what encoding it alone comes to, the octets that encoding it alone gives, or by one of
three errors, two of which leave the buffer as it was before that frame. -/
theorem appendAll_eq (buffer : Bytes) (fs : List Frame) :
    appendAll buffer fs =
        (fs.map fun f => f.encode.map fun _ => (), buffer ++ fs.flatMap imprint) ∧
      ∀ f : Frame, (∃ octets, f.encode = .ok octets ∧ f.imprint = octets) ∨
        ∃ e, f.encode = .error e ∧ f.Unencodable e ∧
          (f.imprint = [] ↔ ∀ len max, e ≠ .frameTooLarge len max) := by
  refine ⟨?_, fun f => ?_⟩
  · induction fs generalizing buffer with
    | nil => rw [appendAll, List.map_nil, List.flatMap_nil, List.append_nil]
    | cons f fs ih =>
      rw [appendAll, encodeInto_eq, List.map_cons, List.flatMap_cons, ← List.append_assoc]
      simp only [ih]
  · rcases f.encode_cases with ⟨octets, hencode⟩ | ⟨e, hencode, hunencodable⟩
    · exact .inl ⟨octets, hencode, by rw [imprint, hencode]⟩
    · refine .inr ⟨e, hencode, hunencodable, ?_⟩
      rw [imprint, hencode]
      cases hunencodable with
      | field auth name s hmessage hfield hlong => simp
      | uids s hmessage hmany => simp
      | overlong hlong => simp [Header.size]

lemma encodeInto_of_overlong_notice {kind : Notice} {body : Bytes} {len : Nat}
    (hlength : body.length = len) (hlong : maxBodyLen < len) :
    ({ seq := 1, message := .notice kind body } : Frame).encodeInto [] =
      (.error (.frameTooLarge len maxBodyLen), List.replicate Header.size 0 ++ body) := by
  subst hlength
  have hwrites : ((Message.notice kind body).write defaultVersion).Writes body :=
    Writing.writes_append body
  exact encodeInto_of_overlong hwrites hlong []

/-- A body of 2^32 octets is refused, and stays in the buffer all the same. -/
theorem appended_of_overlong :
    ({ seq := 1, message := .notice .system (List.replicate 0x100000000 0) } : Frame).encodeInto
        [] =
      (.error (.frameTooLarge 0x100000000 maxBodyLen),
        List.replicate Header.size 0 ++ List.replicate 0x100000000 0) :=
  encodeInto_of_overlong_notice List.length_replicate (by decide)

end Frame

end Parley
