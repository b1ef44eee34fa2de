import ObsBeacon.Rtmp.Connect

/-! The user arguments of the connect command: for which lengths the packet carries both
members, and for which it is sent without them. -/
namespace ObsBeacon.Rtmp
open Amf0 BoundedWriter Decimal

/-- A member, where a condition holds. -/
def memberIf (c : Bool) (name : List UInt8) (value : Value) (rest : Members) : Members :=
  if c then .cons name value rest else rest

/-- The command object in publishing mode. -/
def commandObject (r : RTMP) : Members :=
  .cons (ascii "app") (.string r.link.app)
    (.cons (ascii "type") (.string (ascii "nonprivate"))
      (memberIf (r.link.flashVer.length ≠ 0) (ascii "flashVer") (.string r.link.flashVer)
        (memberIf (r.link.swfUrl.length ≠ 0) (ascii "swfUrl") (.string r.link.swfUrl)
          (memberIf (r.link.tcUrl.length ≠ 0) (ascii "tcUrl") (.string r.link.tcUrl)
            (memberIf (doubleNonzero r.encoding || r.sendEncoding) (ascii "objectEncoding")
              (.number r.encoding) .nil)))))

def commandValues (r : RTMP) : List Value :=
  [.string (ascii "connect"), .number (doubleBits (r.numInvokes + 1)), .object (commandObject r)]

/-- The user arguments as documented. -/
def userObject (sessionId : List UInt8) : Members :=
  .cons (ascii "app") (.string (ascii "obs-beacon"))
    (.cons (ascii "streamSessionId") (.string sessionId) .nil)

def Sent.invokes (sent : Sent) : List RTMPPacket :=
  sent.packets.filter (·.packetType = rtmpPacketTypeInvoke)

/-- Either the call fails and no invoke is sent, or one is sent that decodes to the four
values of a connect command. -/
def AllOrNothing (r : RTMP) (sessionId : List UInt8) (sent : Sent) : Prop :=
  (sent.returned = false ∧ sent.invokes = []) ∨
    ∃ packet, sent.invokes = [packet] ∧
      decodeBody packet.body = some (commandValues r ++ [.object (userObject sessionId)])

/-- The length of a string value on the wire. -/
def stringLength (s : List UInt8) : ℕ := if s.length < 65536 then 3 + s.length else 5 + s.length

/-- The length of the command up to the end of the command object, in publishing mode. -/
def commandLength (r : RTMP) : ℕ :=
  47 + stringLength r.link.app +
    (if r.link.flashVer.length ≠ 0 then 10 + stringLength r.link.flashVer else 0) +
    (if r.link.swfUrl.length ≠ 0 then 8 + stringLength r.link.swfUrl else 0) +
    (if r.link.tcUrl.length ≠ 0 then 7 + stringLength r.link.tcUrl else 0) +
    (if doubleNonzero r.encoding || r.sendEncoding then 25 else 0)

/-- A command of `length` bytes leaves room for the user object, but not for all of it. -/
def Truncates (length idLength : ℕ) : Prop :=
  length ≤ 4073 ∧ 4038 ≤ length + idLength ∧ length ≠ 4056 ∧ length ≠ 4057

theorem encodeInt_eq (k cap n : ℕ) (out : List UInt8) :
    encodeInt k cap n out =
      if out.length + k ≤ cap then some (out ++ bigEndian k n) else none := by
  unfold encodeInt
  split_ifs with h h' h'
  · omega
  · rfl
  · rfl
  · omega

/-- The second half of the bounds check asks for two bytes more than a short string takes. -/
theorem amfEncodeString_eq (cap : ℕ) (s out : List UInt8) :
    amfEncodeString cap s out =
      if out.length + (5 + s.length) ≤ cap then some (out ++ encodeString s) else none := by
  by_cases hfit : out.length + (5 + s.length) ≤ cap
  · rw [amfEncodeString, if_neg (by omega), if_pos hfit, encodeString]
    split_ifs
    · rw [amfEncodeInt16, encodeInt_eq, if_pos (by rw [List.length_append]; simp; omega)]
      simp
    · rw [amfEncodeInt32, encodeInt_eq, if_pos (by rw [List.length_append]; simp; omega)]
      simp
  · rw [amfEncodeString, if_pos (by omega), if_neg hfit]

theorem amfEncodeNumber_eq (cap : ℕ) (bits : UInt64) (out : List UInt8) :
    amfEncodeNumber cap bits out =
      if out.length + 9 ≤ cap then some (out ++ encode (.number bits)) else none := by
  unfold amfEncodeNumber
  split_ifs with h h' h'
  · omega
  · rfl
  · rfl
  · omega

theorem encodeName_eq (cap : ℕ) (name out : List UInt8) :
    encodeName cap name out =
      if out.length + (2 + name.length) ≤ cap then
        some (out ++ (bigEndian 2 name.length ++ name))
      else none := by
  by_cases hfit : out.length + (2 + name.length) ≤ cap
  · rw [encodeName, if_neg (by omega), if_pos hfit, amfEncodeInt16, encodeInt_eq,
      if_pos (by omega), Option.map_some, List.append_assoc]
  · rw [encodeName, if_pos (by omega), if_neg hfit]

theorem endMarker_eq (cap : ℕ) (out : List UInt8) :
    endMarker cap out =
      if out.length + 4 ≤ cap then some (out ++ [0x00, 0x00, 0x09]) else none := by
  by_cases hfit : out.length + 4 ≤ cap
  · rw [endMarker, if_neg (by omega), if_pos hfit, amfEncodeInt24, encodeInt_eq,
      if_pos (by omega)]
    rfl
  · rw [endMarker, if_pos (by omega), if_neg hfit]

theorem appends_string (cap : ℕ) (s : List UInt8) :
    Appends cap 2 (amfEncodeString cap s) (encode (.string s)) := by
  refine Appends.of_exact (amfEncodeString_eq cap s) ?_
  rw [encode, length_encodeString]
  split_ifs <;> omega

theorem appends_number (cap : ℕ) (bits : UInt64) :
    Appends cap 2 (amfEncodeNumber cap bits) (encode (.number bits)) := by
  refine Appends.of_exact (amfEncodeNumber_eq cap bits) ?_
  rw [encode, List.length_cons, length_bigEndian]
  omega

theorem appends_name (cap : ℕ) (name : List UInt8) :
    Appends cap 2 (encodeName cap name) (bigEndian 2 name.length ++ name) := by
  refine Appends.of_exact (encodeName_eq cap name) ?_
  rw [List.length_append, length_bigEndian]
  omega

theorem appends_putByte (cap : ℕ) (b : UInt8) : Appends cap 2 (putByte b) [b] where
  fits _ _ := rfl
  sound _ _ hres := (Option.some.inj hres).symm

theorem appends_namedString (cap : ℕ) (name s : List UInt8) :
    Appends cap 2 (amfEncodeNamedString cap name s)
      ((bigEndian 2 name.length ++ name) ++ encode (.string s)) :=
  (appends_name cap name).bind (appends_string cap s)

theorem appends_namedNumber (cap : ℕ) (name : List UInt8) (bits : UInt64) :
    Appends cap 2 (amfEncodeNamedNumber cap name bits)
      ((bigEndian 2 name.length ++ name) ++ encode (.number bits)) :=
  (appends_name cap name).bind (appends_number cap bits)

theorem encodeMembers_memberIf (c : Bool) (name : List UInt8) (value : Value) (rest : Members) :
    encodeMembers (memberIf c name value rest) =
      (if c then (bigEndian 2 name.length ++ name) ++ encode value else []) ++
        encodeMembers rest := by
  unfold memberIf
  split_ifs
  · rw [encodeMembers, List.append_assoc]
  · rfl

/-- The command up to the end marker, byte for byte. -/
theorem appends_connectFields (r : RTMP) (hwrite : r.link.write = true) :
    ∃ bs, Appends pend 2 (runAll (connectFields r)) bs ∧
      bs ++ [0x00, 0x00, 0x09] = encodeAll (commandValues r) := by
  rw [connectFields, hwrite, Bool.not_true]
  refine ⟨_, Appends.runAll (.cons (appends_string _ _) (.cons (appends_number _ _)
    (.cons (appends_putByte _ _) (.cons (appends_namedString _ _ _)
    (.cons ((appends_namedString _ _ _).onlyIf _) (.cons ((appends_namedString _ _ _).onlyIf _)
    (.cons ((appends_namedString _ _ _).onlyIf _) (.cons ((appends_namedString _ _ _).onlyIf _)
    (.cons .onlyIf_false (.cons ((appends_namedNumber _ _ _).onlyIf _) .nil)))))))))), ?_⟩
  simp only [List.flatten_cons, List.flatten_nil, encodeAll, commandValues,
    List.flatMap_cons, List.flatMap_nil, commandObject, encode, encodeMembers,
    encodeMembers_memberIf, List.append_assoc, List.append_nil]
  rfl

theorem length_encode_string (s : List UInt8) : (encode (.string s)).length = stringLength s := by
  rw [encode, length_encodeString, stringLength]

theorem length_encode_number (bits : UInt64) : (encode (.number bits)).length = 9 := by
  rw [encode, List.length_cons, length_bigEndian]

theorem length_encodeMembers_cons (name : List UInt8) (value : Value) (rest : Members) :
    (encodeMembers (.cons name value rest)).length =
      2 + name.length + (encode value).length + (encodeMembers rest).length := by
  simp only [encodeMembers, List.length_append, length_bigEndian]

theorem length_encodeMembers_memberIf (c : Bool) (name : List UInt8) (value : Value)
    (rest : Members) :
    (encodeMembers (memberIf c name value rest)).length =
      (if c then 2 + name.length + (encode value).length else 0) +
        (encodeMembers rest).length := by
  cases c
  · simp [memberIf]
  · simp [memberIf, length_encodeMembers_cons]

theorem length_commandObject (r : RTMP) :
    (encodeMembers (commandObject r)).length + 20 = commandLength r := by
  have hnames : (ascii "app").length = 3 ∧ (ascii "type").length = 4 ∧
      (ascii "flashVer").length = 8 ∧ (ascii "swfUrl").length = 6 ∧
      (ascii "tcUrl").length = 5 ∧ (ascii "objectEncoding").length = 14 := by decide
  have hvalue : stringLength (ascii "nonprivate") = 13 := by decide
  have hend : (encodeMembers .nil).length = 3 := rfl
  obtain ⟨h1, h2, h3, h4, h5, h6⟩ := hnames
  simp only [commandObject, length_encodeMembers_cons, length_encodeMembers_memberIf,
    length_encode_string, length_encode_number, h1, h2, h3, h4, h5, h6, hvalue, hend,
    Nat.reduceAdd, commandLength, decide_eq_true_eq]
  omega

theorem length_commandValues (r : RTMP) :
    (encodeAll (commandValues r)).length = commandLength r := by
  have hconnect : (encode (.string (ascii "connect"))).length = 10 := by decide
  have hobject : (encode (.object (commandObject r))).length =
      (encodeMembers (commandObject r)).length + 1 := by
    rw [encode, List.length_cons]
  simp only [encodeAll, commandValues, List.flatMap_cons, List.flatMap_nil, List.length_append,
    List.length_nil, hconnect, hobject, length_encode_number, ← length_commandObject]
  omega

/-- The command fits as long as its end marker leaves one byte of the body free. -/
theorem connectCommand_eq (r : RTMP) (hwrite : r.link.write = true) :
    connectCommand r [] =
      if commandLength r < pend then some (encodeAll (commandValues r)) else none := by
  obtain ⟨bs, happ, hbs⟩ := appends_connectFields r hwrite
  have hlen : bs.length + 3 = commandLength r := by
    rw [← length_commandValues, ← hbs, List.length_append]
    rfl
  rw [connectCommand, happ.bind_exact (by decide) (endMarker_eq pend), List.nil_append, hbs]
  apply if_congr _ rfl rfl
  rw [List.length_nil]
  omega

def memberBytes (name s : List UInt8) : List UInt8 :=
  bigEndian 2 name.length ++ name ++ encode (.string s)

theorem amfPropEncode_string (cap : ℕ) {name : List UInt8} (hname : name.length ≠ 0)
    (s out : List UInt8) :
    amfPropEncode cap name (.string s) out =
      if out.length + name.length + 3 < cap ∧ out.length + name.length + s.length + 7 ≤ cap then
        some (out ++ memberBytes name s)
      else none := by
  rw [amfPropEncode, propName]
  by_cases hroom : out.length + name.length + 3 < cap
  · rw [if_neg (by omega), if_pos hname, Option.bind_some, amfEncodeString_eq]
    simp only [List.length_append, length_bigEndian, hroom, true_and, memberBytes, encode,
      List.append_assoc]
    apply if_congr _ rfl rfl
    omega
  · rw [if_pos (by omega), Option.bind_none, if_neg (by omega)]

/-- The loop writes the first member, and the second only after the first. -/
theorem encodeProps_beaconUserProps (sessionId out : List UInt8) :
    encodeProps pend (beaconUserProps sessionId) out =
      if 4058 < out.length then out
      else if 4038 < out.length + sessionId.length then
        out ++ memberBytes (ascii "app") (ascii "obs-beacon")
      else
        out ++ memberBytes (ascii "app") (ascii "obs-beacon") ++
          memberBytes (ascii "streamSessionId") sessionId := by
  have happ : (ascii "app").length = 3 := by decide
  have hobs : (ascii "obs-beacon").length = 10 := by decide
  have hid : (ascii "streamSessionId").length = 15 := by decide
  have hmember : (memberBytes (ascii "app") (ascii "obs-beacon")).length = 18 := by decide
  rw [beaconUserProps, encodeProps, amfPropEncode_string pend (by decide), happ, hobs]
  by_cases h1 : 4058 < out.length
  · rw [if_neg (by rw [pend]; omega), if_pos h1]
  · rw [if_pos (by rw [pend]; omega), if_neg h1]
    simp only [encodeProps]
    rw [amfPropEncode_string pend (by decide), hid, List.length_append, hmember]
    by_cases h2 : 4038 < out.length + sessionId.length
    · rw [if_neg (by rw [pend]; omega), if_pos h2]
    · rw [if_pos (by rw [pend]; omega), if_neg h2]

def appOnly : Members := .cons (ascii "app") (.string (ascii "obs-beacon")) .nil

/-- The user object that goes out after a command of `length` bytes, if the call goes on. -/
def sentUserObject (length : ℕ) (sessionId : List UInt8) : Option Members :=
  if length + sessionId.length ≤ 4035 then some (userObject sessionId)
  else if length + sessionId.length ≤ 4037 then none
  else if length ≤ 4055 then some appOnly
  else if length ≤ 4057 then none
  else if length ≤ 4073 then some .nil
  else none

theorem connectExtras_eq {sessionId : List UInt8} (hid : sessionId.length ≤ 39)
    (out : List UInt8) :
    connectExtras (beaconExtras sessionId) out =
      (sentUserObject out.length sessionId).map fun user => out ++ encode (.object user) := by
  have happ : (memberBytes (ascii "app") (ascii "obs-beacon")).length = 18 := by decide
  have hsession : (memberBytes (ascii "streamSessionId") sessionId).length =
      20 + sessionId.length := by
    have hname : (ascii "streamSessionId").length = 15 := by decide
    simp only [memberBytes, List.length_append, length_bigEndian, hname, length_encode_string,
      stringLength]
    rw [if_pos (by omega)]
    omega
  have hloop : connectExtras (beaconExtras sessionId) out =
      if pend ≤ out.length + 4 then none
      else endMarker pend (encodeProps pend (beaconUserProps sessionId) (out ++ [0x03])) := by
    simp only [beaconExtras, connectExtras, amfPropEncode_object, propName, List.length_nil,
      ne_eq, not_true_eq_false, ↓reduceIte]
    by_cases hroom : pend ≤ out.length + 0 + 2 + 1
    · rw [if_pos hroom, if_pos (by omega)]
      rfl
    · rw [if_neg hroom, Option.bind_some, amfEncode, objectAround]
      exact Option.bind_fun_some _
  have hpend : pend = 4078 := rfl
  rw [hloop, encodeProps_beaconUserProps, sentUserObject, hpend]
  have hregion : out.length + sessionId.length ≤ 4035 ∨
      (4036 ≤ out.length + sessionId.length ∧ out.length + sessionId.length ≤ 4037) ∨
      (4038 ≤ out.length + sessionId.length ∧ out.length ≤ 4055) ∨
      (4056 ≤ out.length ∧ out.length ≤ 4057) ∨
      (4058 ≤ out.length ∧ out.length ≤ 4073) ∨ 4074 ≤ out.length := by omega
  rcases hregion with h | h | h | h | h | h
  all_goals
    simp (disch := omega) only [List.length_append, List.length_singleton, if_pos, if_neg,
      endMarker_eq, happ, hsession, Option.map_some, Option.map_none]
  · simp [userObject, encode, encodeMembers, memberBytes]
  · simp [appOnly, encode, encodeMembers, memberBytes]
  · simp [encode, encodeMembers]

/-- The body of the invoke, if there is one: the command and the user object that fits. -/
theorem connectBody_eq (r : RTMP) {sessionId : List UInt8} (hwrite : r.link.write = true)
    (hauth : r.link.auth = []) (hextras : r.link.extras = beaconExtras sessionId)
    (hid : sessionId.length ≤ 39) :
    connectBody r = (sentUserObject (commandLength r) sessionId).map fun user =>
      encodeAll (commandValues r ++ [.object user]) := by
  have hskip : ∀ out, connectAuth r out = some out := by
    intro out
    simp [connectAuth, hauth, onlyIf]
  rw [connectBody, runAll, connectCommand_eq r hwrite]
  by_cases hfit : commandLength r < pend
  · rw [if_pos hfit, Option.bind_some, runAll, hskip, Option.bind_some, runAll, hextras,
      connectExtras_eq hid, length_commandValues]
    cases sentUserObject (commandLength r) sessionId with
    | none => rfl
    | some user => simp [runAll, encodeAll]
  · rw [if_neg hfit, Option.bind_none, sentUserObject]
    unfold pend at hfit
    simp (disch := omega) only [if_neg, Option.map_none]

theorem fits_memberIf {c : Bool} {name : List UInt8} {value : Value} {rest : Members}
    (hname : name.length < 65536) (hvalue : c = true → value.Fits) (hrest : rest.Fits) :
    (memberIf c name value rest).Fits := by
  cases c with
  | false => exact hrest
  | true => exact ⟨hname, hvalue rfl, hrest⟩

theorem length_le_stringLength (s : List UInt8) : s.length ≤ stringLength s := by
  unfold stringLength
  split_ifs <;> omega

/-- A string whose share of the command is small enough fits. -/
theorem fits_memberIf_string {name s : List UInt8} {rest : Members} {k : ℕ}
    (hname : name.length < 65536)
    (hlen : (if s.length ≠ 0 then k + stringLength s else 0) ≤ 4073) (hrest : rest.Fits) :
    (memberIf (s.length ≠ 0) name (.string s) rest).Fits := by
  refine fits_memberIf hname (fun hc => ?_) hrest
  rw [if_pos (of_decide_eq_true hc)] at hlen
  have hle := length_le_stringLength s
  unfold Value.Fits
  omega

theorem fits_commandValues {r : RTMP} (hlen : commandLength r ≤ 4073) :
    ∀ v ∈ commandValues r, v.Fits := by
  have happ := length_le_stringLength r.link.app
  unfold commandLength at hlen
  have hobject : (commandObject r).Fits := by
    refine ⟨by decide, ?_, by decide, ?_, ?_⟩
    · unfold Value.Fits
      omega
    · unfold Value.Fits
      decide
    · apply fits_memberIf_string (k := 10) (by decide) (by omega)
      apply fits_memberIf_string (k := 8) (by decide) (by omega)
      apply fits_memberIf_string (k := 7) (by decide) (by omega)
      exact fits_memberIf (by decide) (fun _ => trivial) trivial
  intro v hv
  simp only [commandValues, List.mem_cons, List.not_mem_nil, or_false] at hv
  rcases hv with rfl | rfl | rfl
  · unfold Value.Fits
    decide
  · trivial
  · exact hobject

/-- What goes out for each length, and that it decodes. -/
theorem sentUserObject_cases {length : ℕ} {sessionId : List UInt8} {user : Members}
    (h : sentUserObject length sessionId = some user) :
    length ≤ 4073 ∧ (sessionId.length ≤ 39 → user.Fits) ∧
      (user = userObject sessionId ↔ ¬ Truncates length sessionId.length) := by
  unfold sentUserObject at h
  split_ifs at h with h1 h2 h3 h4 h5 <;> obtain rfl := Option.some.inj h
  · refine ⟨by omega, fun hid => ?_, fun _ => ?_, fun _ => rfl⟩
    · exact ⟨by decide, by rw [Value.Fits]; decide, by decide, by rw [Value.Fits]; omega, trivial⟩
    · rintro ⟨-, hlong, -⟩
      omega
  · refine ⟨by omega, fun _ => ⟨by decide, by rw [Value.Fits]; decide, trivial⟩, ?_, ?_⟩
    · simp [appOnly, userObject]
    · intro hnot
      exact absurd ⟨by omega, by omega, by omega, by omega⟩ hnot
  · refine ⟨h5, fun _ => trivial, ?_, ?_⟩
    · simp [userObject]
    · intro hnot
      exact absurd ⟨by omega, by omega, by omega, by omega⟩ hnot

theorem sentUserObject_of_truncates {length : ℕ} {sessionId : List UInt8}
    (h : Truncates length sessionId.length) :
    ∃ user, sentUserObject length sessionId = some user := by
  obtain ⟨h1, h2, h3, h4⟩ := h
  unfold sentUserObject
  split_ifs
  · omega
  · omega
  · exact ⟨_, rfl⟩
  · omega
  · exact ⟨_, rfl⟩

/-- The chunk size packet, if it is due, goes out. -/
def Announced (send : RTMPPacket → Bool) (r : RTMP) : Prop := (announcement r).all send = true

theorem invokes_announcement (r : RTMP) (ok : Bool) :
    (Sent.mk (announcement r) ok).invokes = [] := by
  unfold Sent.invokes announcement
  split_ifs <;> rfl

theorem invokes_announcement_append (r : RTMP) (channel : ℕ) (body : List UInt8) (ok : Bool) :
    (Sent.mk (announcement r ++ [⟨channel, rtmpPacketTypeInvoke, body⟩]) ok).invokes =
      [⟨channel, rtmpPacketTypeInvoke, body⟩] := by
  have h : (announcement r).filter (·.packetType = rtmpPacketTypeInvoke) = [] :=
    invokes_announcement r ok
  rw [Sent.invokes, List.filter_append, h]
  rfl

section Publishing
variable (send : RTMPPacket → Bool) {r : RTMP} {sessionId : List UInt8}
  (hwrite : r.link.write = true) (hauth : r.link.auth = [])
  (hextras : r.link.extras = beaconExtras sessionId) (hid : sessionId.length ≤ 39)

/-- Without the announcement the call fails. -/
theorem allOrNothing_of_not_announced (h : ¬ Announced send r) :
    AllOrNothing r sessionId (sendConnectPacket send r none) := by
  left
  rw [sendConnectPacket, if_neg (show ¬ (announcement r).all send = true from h)]
  exact ⟨rfl, invokes_announcement r false⟩

include hwrite hauth hextras hid

/-- After the announcement, the user object that fits decides. -/
theorem allOrNothing_of_announced (h : Announced send r) :
    AllOrNothing r sessionId (sendConnectPacket send r none) ↔
      ∀ user ∈ sentUserObject (commandLength r) sessionId, user = userObject sessionId := by
  rw [sendConnectPacket, if_pos (show (announcement r).all send = true from h),
    connectBody_eq r hwrite hauth hextras hid]
  cases huser : sentUserObject (commandLength r) sessionId with
  | none => exact iff_of_true (.inl ⟨rfl, invokes_announcement r false⟩) (by simp)
  | some user =>
    obtain ⟨hlen, hfits, -⟩ := sentUserObject_cases huser
    have hdecode : decodeBody (encodeAll (commandValues r ++ [.object user])) =
        some (commandValues r ++ [.object user]) := by
      apply decodeBody_encodeAll
      intro v hv
      rcases List.mem_append.mp hv with hv | hv
      · exact fits_commandValues hlen v hv
      · obtain rfl := List.mem_singleton.mp hv
        exact hfits hid
    simp [AllOrNothing, invokes_announcement_append, hdecode]

theorem not_allOrNothing_of_truncates (h : Announced send r)
    (htrunc : Truncates (commandLength r) sessionId.length) :
    ¬ AllOrNothing r sessionId (sendConnectPacket send r none) := by
  rw [allOrNothing_of_announced send hwrite hauth hextras hid h]
  intro hall
  obtain ⟨user, huser⟩ := sentUserObject_of_truncates htrunc
  exact (sentUserObject_cases huser).2.2.mp (hall user huser) htrunc

/-- The user arguments are all or nothing exactly if the announcement fails or the command's
length is not one that truncates the user object. -/
theorem userArguments_allOrNothing_iff :
    AllOrNothing r sessionId (sendConnectPacket send r none) ↔
      ¬ (Announced send r ∧ Truncates (commandLength r) sessionId.length) := by
  constructor
  · rintro hall ⟨hann, htrunc⟩
    exact not_allOrNothing_of_truncates send hwrite hauth hextras hid hann htrunc hall
  · intro hnot
    by_cases hann : Announced send r
    · rw [allOrNothing_of_announced send hwrite hauth hextras hid hann]
      intro user huser
      exact (sentUserObject_cases huser).2.2.mpr fun htrunc => hnot ⟨hann, htrunc⟩
    · exact allOrNothing_of_not_announced send hann

end Publishing

/-- The connection as `try_connect` sets it up for `rtmp://h/` and a path of `n` letters, with
the flash version it always sends. -/
def beaconConnect (n : ℕ) (sessionId : List UInt8) : RTMP where
  link :=
    { write := true
      app := List.replicate n 0x61
      swfUrl := ascii "rtmp://h/" ++ List.replicate n 0x61
      tcUrl := ascii "rtmp://h/" ++ List.replicate n 0x61
      flashVer := ascii "FMLE/3.0 (compatible; FMSc/1.0)"
      pageUrl := []
      auth := []
      authFlag := false
      extras := beaconExtras sessionId }
  sendChunkSizeInfo := true
  outChunkSize := 4096
  numInvokes := 0
  encoding := 0
  sendEncoding := false
  audioCodecs := 0
  videoCodecs := 0

def exampleSessionId : List UInt8 := ascii "1725ca6b-1f65-4b29-b306-44d1b4c7e9e7"

theorem commandLength_beaconConnect {n : ℕ} (h : 0 < n) (hlt : n < 65000)
    (sessionId : List UInt8) : commandLength (beaconConnect n sessionId) = 133 + 3 * n := by
  have hflash : (ascii "FMLE/3.0 (compatible; FMSc/1.0)").length = 31 := by decide
  have hhost : (ascii "rtmp://h/").length = 9 := by decide
  have hnum : (doubleNonzero 0 || false) = false := by decide
  simp only [commandLength, beaconConnect, stringLength, hflash, hhost, hnum, List.length_append,
    List.length_replicate]
  simp (disch := omega) only [if_pos]
  simp
  omega

theorem userArguments_allOrNothing_iff_short :
    AllOrNothing (beaconConnect 4 exampleSessionId) exampleSessionId
        (sendConnectPacket (fun _ => true) (beaconConnect 4 exampleSessionId) none) ↔
      ¬ (Announced (fun _ => true) (beaconConnect 4 exampleSessionId) ∧
        Truncates (commandLength (beaconConnect 4 exampleSessionId)) exampleSessionId.length) :=
  userArguments_allOrNothing_iff (fun _ => true) rfl rfl rfl (by decide)

/-- A path of 1290 letters: the packet goes out with the session id missing. -/
theorem userArguments_truncated :
    ¬ AllOrNothing (beaconConnect 1290 exampleSessionId) exampleSessionId
      (sendConnectPacket (fun _ => true) (beaconConnect 1290 exampleSessionId) none) := by
  have hid : exampleSessionId.length = 36 := by decide
  have hlen := commandLength_beaconConnect (n := 1290) (by omega) (by omega) exampleSessionId
  refine not_allOrNothing_of_truncates _ rfl rfl rfl (by omega) rfl ?_
  rw [hlen, hid, Truncates]
  omega

end ObsBeacon.Rtmp
