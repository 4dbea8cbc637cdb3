/-
# One call spends one token

`send_once` asks at every moment only what its history permits: a connection, if there was none yet; a
token, if there was none yet and the peer is the pinned one; a frame, if there was none yet and the
inputs were accepted again after the token came.  `send_once_pinned`: this, what a returned value
says of the octets of the peer, what is raised, and that the message of a token is never too large.

The sizing value that `validate_inputs` writes has the longest token there is, and the message with
any token is no longer than it (`canonical_token`).
-/
import Supplementary.Caller.Sender
import Supplementary.Python.RoundTrip
import Supplementary.Python.Split

namespace Supplementary.Caller

open Supplementary PyStr Effects

/-! ## 1. Histories -/

/-- What a history comes to. -/
structure Tally where
  connects : Nat
  gets : Nat
  sends : Nat
  /-- The octets of the token's response. -/
  responded : Bytes
  /-- The octets of the peer. -/
  received : Bytes

def Tally.add (t : Tally) : Event CallerAns → Tally
  | ⟨.connect _ _, _⟩ => { t with connects := t.connects + 1 }
  | ⟨.oidcGet _ _, _⟩ => { t with gets := t.gets + 1 }
  | ⟨.sendall _, _⟩ => { t with sends := t.sends + 1 }
  | ⟨.oidcRead _, .ok chunk⟩ => { t with responded := t.responded ++ chunk.1 }
  | ⟨.recv _, .ok chunk⟩ => { t with received := t.received ++ chunk.1 }
  | _ => t

def tally (h : Trace CallerAns) : Tally := h.foldl Tally.add ⟨0, 0, 0, [], []⟩

@[simp] theorem tally_snoc (h : Trace CallerAns) (e : Event CallerAns) :
    tally (h ++ [e]) = (tally h).add e := by
  rw [tally, List.foldl_append]
  rfl

/-- An operation that is always permitted and does not count. -/
def IsPlain : CallerOp → Prop
  | .connect _ _ | .oidcGet _ _ | .sendall _ | .oidcRead _ | .recv _ => False
  | _ => True

theorem add_plain {t : Tally} {e : Event CallerAns} (h : IsPlain e.1) : t.add e = t := by
  obtain ⟨op, answer⟩ := e
  cases op with
  | connect _ _ => exact h.elim
  | oidcGet _ _ => exact h.elim
  | sendall _ => exact h.elim
  | oidcRead _ => exact h.elim
  | recv _ => exact h.elim
  | _ => rfl

/-- What stays known of a history as it grows. -/
def Grows (K : Trace CallerAns → Prop) : Prop := ∀ h e, K h → K (h ++ [e])

/-- Such a history, of which this is known. -/
def At (t : Tally) (K : Trace CallerAns → Prop) (h : Trace CallerAns) : Prop := tally h = t ∧ K h

theorem stays_at {t : Tally} {K : Trace CallerAns → Prop} (hK : Grows K) : Stays IsPlain (At t K) := by
  intro h e hat he
  rw [At, tally_snoc, hat.1, add_plain he]
  exact ⟨rfl, hK h e hat.2⟩

theorem grows_mem {e : Event CallerAns} : Grows fun h => e ∈ h :=
  fun _ _ he => List.mem_append_left _ he

theorem Grows.and {K K' : Trace CallerAns → Prop} (h : Grows K) (h' : Grows K') :
    Grows fun tr => K tr ∧ K' tr := fun tr e hK => ⟨h tr e hK.1, h' tr e hK.2⟩

theorem grows_exists {γ : Type} {K : γ → Trace CallerAns → Prop} (h : ∀ c, Grows (K c)) :
    Grows fun tr => ∃ c, K c tr := fun tr e hK => hK.imp fun c hc => h c tr e hc

theorem grows_const {p : Prop} : Grows fun _ => p := fun _ _ hp => hp

/-! ## 2. What is permitted -/

section

variable (platform : Platform) (delivery envelope environ : Value)

/-- The inputs were accepted at an instant that the clock showed. -/
def Validated (h : Trace CallerAns) : Prop := ∃ now : ℚ,
  (⟨.time, .ok now⟩ : Event CallerAns) ∈ h ∧
    validateInputs platform.rt delivery envelope environ now = .ok ()

/-- The peer has completed a TLS 1.3 handshake and shown the pinned certificate. -/
def Pinned (h : Trace CallerAns) : Prop :=
  (⟨.connect (textOf (delivery.get "ipv4")) (intValue (delivery.get "port")), .ok ()⟩ :
    Event CallerAns) ∈ h ∧ (⟨.handshake, .ok ()⟩ : Event CallerAns) ∈ h ∧
    (⟨.tlsVersion, .ok (some "TLSv1.3")⟩ : Event CallerAns) ∈ h ∧ ∃ certificate,
      (⟨.peerCertificate, .ok (some certificate)⟩ : Event CallerAns) ∈ h ∧
        platform.rt.sha256 certificate = textOf (delivery.get "leaf_sha256")

/-- What is checked before a token is asked for. -/
def Ready (capability : Capability) (h : Trace CallerAns) : Prop :=
  Validated platform delivery envelope environ h ∧
    oidcCapability platform environ = .ok capability ∧ Pinned platform delivery h

/-- The token is the one that the response has. -/
def Fetched (token : PyStr) (t : Tally) : Prop := isToken token = true ∧ ∃ result,
  decode platform.rt t.responded = .ok result ∧ result.get "value" = .str token

/-- The inputs were accepted again after the token came. -/
def Revalidated (token : PyStr) (h : Trace CallerAns) : Prop := ∃ pre post, h = pre ++ post ∧
  Fetched platform token (tally pre) ∧ Validated platform delivery envelope environ post

/-- What may be asked after a history. -/
def Permits (h : Trace CallerAns) : CallerOp → Prop
  | .connect ipv4 port => (tally h).connects = 0 ∧
      Validated platform delivery envelope environ h ∧
      ipv4 = textOf (delivery.get "ipv4") ∧ port = intValue (delivery.get "port")
  | .oidcGet target bearer => (tally h).gets = 0 ∧ ∃ capability,
      Ready platform delivery envelope environ capability h ∧ target = capability.target ∧
        bearer = capability.bearer
  | .sendall frame => (tally h).sends = 0 ∧ (∃ capability,
      Ready platform delivery envelope environ capability h) ∧ ∃ token data,
        Revalidated platform delivery envelope environ token h ∧
          canonical platform.rt (messageOf envelope token) = .ok data ∧ frame = frameOf data
  | _ => True

end

theorem grows_validated {platform : Platform} {delivery envelope environ : Value} :
    Grows (Validated platform delivery envelope environ) :=
  grows_exists fun _ => grows_mem.and grows_const

theorem grows_pinned {platform : Platform} {delivery : Value} : Grows (Pinned platform delivery) :=
  grows_mem.and (grows_mem.and (grows_mem.and (grows_exists fun _ => grows_mem.and grows_const)))

theorem grows_ready {platform : Platform} {delivery envelope environ : Value}
    {capability : Capability} : Grows (Ready platform delivery envelope environ capability) :=
  grows_validated.and (grows_const.and grows_pinned)

theorem grows_revalidated {platform : Platform} {delivery envelope environ : Value} {token : PyStr} :
    Grows (Revalidated platform delivery envelope environ token) := by
  rintro h e ⟨pre, post, rfl, hfetched, hvalid⟩
  exact ⟨pre, post ++ [e], List.append_assoc .., hfetched, grows_validated post e hvalid⟩

/-! ## 3. The steps -/

section

variable {platform : Platform} {delivery envelope environ : Value} {α β : Type}
  {t : Tally} {K : Trace CallerAns → Prop}

/-- Where a call has raised, only closing is left, which is always permitted. -/
def Raising (_ : Trace CallerAns) : Prop := True

variable (platform delivery envelope environ) in
/-- The method asks only what is permitted. -/
abbrev Permitted (P : Trace CallerAns → Prop) (x : CallerAct α) (Q : α → Trace CallerAns → Prop) :
    Prop := Walks (Permits platform delivery envelope environ) P x Q Raising

theorem permits_plain {h : Trace CallerAns} {op : CallerOp} (hop : IsPlain op) :
    Permits platform delivery envelope environ h op := by
  cases op with
  | connect _ _ => exact hop.elim
  | oidcGet _ _ => exact hop.elim
  | sendall _ => exact hop.elim
  | _ => trivial

/-- A method that only asks what is always permitted. -/
theorem keeping {P : Trace CallerAns → Prop} {x : CallerAct α} (hx : Only IsPlain x)
    (hP : Stays IsPlain P) : Permitted platform delivery envelope environ P x fun _ => P :=
  (Walks.of_only hx (fun _ _ _ hop => permits_plain hop) hP).weaken (fun _ h => h)
    (fun _ _ h => h) fun _ _ => trivial

theorem plain {x : CallerAct α} (hx : Only IsPlain x) (hK : Grows K) :
    Permitted platform delivery envelope environ (At t K) x fun _ => At t K :=
  keeping hx (stays_at hK)

/-- An operation that is always permitted, with its answer. -/
theorem asking {op : CallerOp} (hop : IsPlain op) (hK : Grows K) :
    Permitted platform delivery envelope environ (At t K) (ask op)
      fun a => At t fun h => K h ∧ (⟨op, .ok a⟩ : Event CallerAns) ∈ h := by
  refine walks_call (fun h _ => permits_plain hop) (fun h a hat => ?_) fun _ _ _ => trivial
  rw [At, tally_snoc, hat.1, add_plain hop]
  exact ⟨rfl, hK h _ hat.2, List.mem_append_right _ (List.mem_singleton_self _)⟩

/-- A check that asks nothing. -/
theorem checking {P : Trace CallerAns → Prop} {r : Except Raised α} :
    Permitted platform delivery envelope environ P (liftM r : CallerAct α)
      fun a h => r = .ok a ∧ P h :=
  walks_ofExcept (fun _ _ hr hP => ⟨hr, hP⟩) fun _ _ => trivial

theorem raising {P : Trace CallerAns → Prop} {e : Raised} {Q : α → Trace CallerAns → Prop} :
    Permitted platform delivery envelope environ P (Act.raise e : CallerAct α) Q := by
  refine walks_ofExcept (fun a h hr _ => ?_) fun _ _ => trivial
  cases hr

theorem updating {P : Trace CallerAns → Prop} {change : Locals → Locals} :
    Permitted platform delivery envelope environ P (Act.update change : CallerAct Unit) fun _ => P :=
  walks_update fun _ hP => hP

theorem checked_eq_ok {x : Py α} {a : α} : checked x = .ok a ↔ x = .ok a := by
  cases x with
  | ok b => simp [checked, Except.mapError]
  | error e => simp [checked, Except.mapError]

theorem demanding {P : Trace CallerAns → Prop} {condition : Prop} [Decidable condition]
    {message : String} : Permitted platform delivery envelope environ P
      (demand condition message) fun _ h => condition ∧ P h := by
  refine checking.weaken (fun _ h => h) (fun _ _ hP => ⟨?_, hP.2⟩) fun _ _ => trivial
  have hheld := checked_eq_ok.mp hP.1
  exact raiseUnless_eq_ok.mp hheld

theorem only_checked {r : Except Raised α} : Only IsPlain (liftM r : CallerAct α) := only_ofExcept

theorem only_ask {op : CallerOp} (hop : IsPlain op) : Only IsPlain (ask op) := only_call hop

theorem only_remaining {deadline : ℚ} : Only IsPlain (remaining deadline) :=
  (only_call trivial).bind fun _ => only_checked.bind fun _ => only_pure

/-! ## 4. The phases -/

/-- The token's response, read to its end. -/
theorem readResponse_permitted (hK : Grows K) {deadline : ℚ} (room : Nat) : ∀ t : Tally,
    Permitted platform delivery envelope environ (At t K) (readResponse deadline room)
      fun a => At { t with responded := t.responded ++ a } K := by
  induction room using Nat.strongRecOn with
  | _ room ih =>
    intro t
    rw [readResponse]
    have htimeout : Only IsPlain (oidcTimeout deadline) := by
      refine (only_call trivial).bind fun found => ?_
      cases found with
      | true => exact only_remaining.bind fun _ => only_ask trivial
      | false => exact only_pure
    refine Walks.bind (plain htimeout hK) fun _ => ?_
    refine Walks.bind (plain only_remaining hK) fun _ => ?_
    have hread : Permitted platform delivery envelope environ (At t K)
        (ask (.oidcRead (min 4096 room))) fun chunk =>
          At { t with responded := t.responded ++ chunk.1 } K := by
      refine walks_call (fun _ _ => trivial) (fun h chunk hat => ?_) fun _ _ _ => trivial
      rw [At, tally_snoc, hat.1]
      exact ⟨rfl, hK h _ hat.2⟩
    refine Walks.bind hread fun chunk => ?_
    split
    · next hempty =>
      refine walks_pure fun h hat => ?_
      rw [hempty] at hat
      exact hat
    · next hsome =>
      split
      · exact raising
      · have hlength := List.length_pos_iff.mpr hsome
        have hbound := chunk.2
        refine Walks.bind (ih (room - chunk.1.length) (by omega) _) fun rest => walks_pure fun h hat => ?_
        rw [← List.append_assoc]
        exact hat

/-- So many octets of the peer. -/
theorem readExact_permitted (hK : Grows K) {deadline : ℚ} (size : Nat) : ∀ t : Tally,
    Permitted platform delivery envelope environ (At t K) (readExact deadline size)
      fun a h => a.length = size ∧ At { t with received := t.received ++ a } K h := by
  induction size using Nat.strongRecOn with
  | _ size ih =>
    intro t
    rw [readExact]
    split
    · next hzero =>
      refine walks_pure fun h hat => ⟨hzero.symm, ?_⟩
      rw [List.append_nil]
      exact hat
    · next hpositive =>
      refine Walks.bind (plain only_remaining hK) fun left => ?_
      refine Walks.bind (plain (only_ask trivial) hK) fun _ => ?_
      have hread : Permitted platform delivery envelope environ (At t K) (ask (.recv size))
          fun chunk => At { t with received := t.received ++ chunk.1 } K := by
        refine walks_call (fun _ _ => trivial) (fun h chunk hat => ?_) fun _ _ _ => trivial
        rw [At, tally_snoc, hat.1]
        exact ⟨rfl, hK h _ hat.2⟩
      refine Walks.bind hread fun chunk => ?_
      split
      · exact raising
      · next hsome =>
        have hlength := List.length_pos_iff.mpr hsome
        have hbound := chunk.2
        refine Walks.bind (ih (size - chunk.1.length) (by omega) _) fun rest => walks_pure fun h hat => ?_
        refine ⟨by
          rw [List.length_append, hat.1]
          omega, ?_⟩
        rw [← List.append_assoc]
        exact hat.2

theorem validateNow_permitted (hK : Grows K) : Permitted platform delivery envelope environ (At t K)
    (validateNow platform delivery envelope environ)
    fun _ => At t fun h => K h ∧ Validated platform delivery envelope environ h := by
  refine Walks.bind (asking trivial hK) fun now => ?_
  refine checking.weaken (fun _ h => h) (fun _ h hP => ?_) fun _ h => h
  exact ⟨hP.2.1, hP.2.2.1, now, hP.2.2.2, checked_eq_ok.mp hP.1⟩

/-- Where the connection stands: the tally of a call that has connected or not. -/
def connected (n : Nat) : Tally := ⟨n, 0, 0, [], []⟩

/-- The connection is made once, to the peer of the delivery. -/
theorem openPeer_permitted (hK : Grows K)
    (hvalid : ∀ h, K h → Validated platform delivery envelope environ h) {deadline : ℚ} :
    Permitted platform delivery envelope environ (At (connected 0) K) (openPeer delivery deadline)
      fun _ => At (connected 1) fun h => (K h ∧ (⟨.connect (textOf (delivery.get "ipv4"))
        (intValue (delivery.get "port")), .ok ()⟩ : Event CallerAns) ∈ h) ∧
          (⟨.handshake, .ok ()⟩ : Event CallerAns) ∈ h := by
  have hconnect : Permitted platform delivery envelope environ (At (connected 0) K)
      (ask (.connect (textOf (delivery.get "ipv4")) (intValue (delivery.get "port"))))
      fun a => At (connected 1) fun h => K h ∧ (⟨.connect (textOf (delivery.get "ipv4"))
        (intValue (delivery.get "port")), .ok a⟩ : Event CallerAns) ∈ h := by
    refine walks_call (fun h hat => ?_) (fun h a hat => ?_) fun _ _ _ => trivial
    · exact ⟨by rw [hat.1]; rfl, hvalid h hat.2, rfl, rfl⟩
    · rw [At, tally_snoc, hat.1]
      exact ⟨rfl, hK h _ hat.2, List.mem_append_right _ (List.mem_singleton_self _)⟩
  refine Walks.bind updating fun _ => ?_
  refine Walks.bind (plain (only_ask trivial) hK) fun _ => ?_
  refine Walks.bind (plain (only_ask trivial) hK) fun _ => ?_
  refine Walks.bind updating fun _ => ?_
  refine Walks.bind (plain (only_ask trivial) hK) fun _ => ?_
  refine Walks.bind updating fun _ => ?_
  refine Walks.bind (plain only_remaining hK) fun left => ?_
  refine Walks.bind (plain (only_ask trivial) hK) fun _ => ?_
  refine Walks.bind hconnect fun _ => ?_
  refine Walks.bind updating fun _ => ?_
  refine Walks.bind (plain (only_ask trivial) (hK.and grows_mem)) fun _ => ?_
  refine Walks.bind updating fun _ => ?_
  refine Walks.bind (plain only_remaining (hK.and grows_mem)) fun left => ?_
  refine Walks.bind (plain (only_ask trivial) (hK.and grows_mem)) fun _ => ?_
  exact asking trivial (hK.and grows_mem)

/-- The certificate is the pinned one. -/
theorem checkPeer_permitted (hK : Grows K) :
    Permitted platform delivery envelope environ (At t K) (checkPeer platform delivery)
      fun _ => At t fun h => K h ∧ (⟨.tlsVersion, .ok (some "TLSv1.3")⟩ : Event CallerAns) ∈ h ∧
        ∃ certificate, (⟨.peerCertificate, .ok (some certificate)⟩ : Event CallerAns) ∈ h ∧
          platform.rt.sha256 certificate = textOf (delivery.get "leaf_sha256") := by
  refine Walks.bind (asking trivial hK) fun certificate => ?_
  cases certificate with
  | none => exact raising
  | some certificate =>
    refine Walks.bind (asking trivial (hK.and grows_mem)) fun version => ?_
    refine demanding.weaken (fun _ h => h) (fun _ h hP => ?_) fun _ h => h
    obtain ⟨⟨rfl, hpin⟩, htally, ⟨hknown, hshown⟩, hversion⟩ := hP
    exact ⟨htally, hknown, hversion, certificate, hshown, hpin⟩

/-- The token is asked for once, and it is the one of the response. -/
theorem requestToken_permitted {capability : Capability} {deadline : ℚ} :
    Permitted platform delivery envelope environ
      (At (connected 1) (Ready platform delivery envelope environ capability))
      (requestToken platform capability deadline)
      fun token h => ∃ chunks, At ⟨1, 1, 0, chunks, []⟩
        (Ready platform delivery envelope environ capability) h ∧
          Fetched platform token ⟨1, 1, 0, chunks, []⟩ := by
  have hget : Permitted platform delivery envelope environ
      (At (connected 1) (Ready platform delivery envelope environ capability))
      (ask (.oidcGet capability.target capability.bearer))
      fun _ => At ⟨1, 1, 0, [], []⟩ (Ready platform delivery envelope environ capability) := by
    refine walks_call (fun h hat => ?_) (fun h a hat => ?_) fun _ _ _ => trivial
    · exact ⟨by rw [hat.1]; rfl, capability, hat.2, rfl, rfl⟩
    · rw [At, tally_snoc, hat.1]
      exact ⟨rfl, grows_ready h _ hat.2⟩
  refine Walks.bind hget fun _ => ?_
  refine Walks.bind (plain (only_ask trivial) grows_ready) fun status => ?_
  refine Walks.bind (demanding.weaken (fun _ h => h) (fun _ _ hP => hP.2) fun _ h => h) fun _ => ?_
  refine Walks.bind (readResponse_permitted grows_ready _ _) fun chunks => ?_
  refine Walks.bind (plain only_remaining grows_ready) fun _ => ?_
  refine Walks.bind checking fun result => ?_
  refine Walks.bind demanding fun _ => walks_pure fun h hP => ?_
  obtain ⟨⟨-, hvalue⟩, hdecode, hat⟩ := hP
  obtain ⟨token, htoken⟩ : ∃ token, result.get "value" = .str token := by
    cases hget : result.get "value" with
    | str token => exact ⟨token, rfl⟩
    | _ =>
      rw [hget] at hvalue
      cases hvalue
  rw [htoken] at hvalue ⊢
  exact ⟨chunks, hat, hvalue, result, checked_eq_ok.mp hdecode, htoken⟩

/-- What is known of a call that has its token. -/
def Holding (platform : Platform) (delivery envelope environ : Value) (token : PyStr)
    (h : Trace CallerAns) : Prop := ∃ capability chunks, At ⟨1, 1, 0, chunks, []⟩
      (Ready platform delivery envelope environ capability) h ∧
        Fetched platform token ⟨1, 1, 0, chunks, []⟩

theorem stays_holding {token : PyStr} :
    Stays IsPlain (Holding platform delivery envelope environ token) := by
  rintro h e ⟨capability, chunks, hat, hfetched⟩ he
  exact ⟨capability, chunks, stays_at grows_ready h e hat he, hfetched⟩

theorem fetchWith_permitted {capability : Capability} {deadline : ℚ} :
    Permitted platform delivery envelope environ
      (At (connected 1) (Ready platform delivery envelope environ capability))
      (fetchWith platform capability deadline)
      fun token => Holding platform delivery envelope environ token := by
  have hrequest : Permitted platform delivery envelope environ
      (At (connected 1) (Ready platform delivery envelope environ capability))
      (requestToken platform capability deadline)
      fun token => Holding platform delivery envelope environ token :=
    requestToken_permitted.weaken (fun _ h => h) (fun _ _ hP => ⟨capability, hP⟩) fun _ h => h
  refine Walks.bind (plain (only_ask trivial) grows_ready) fun _ => ?_
  refine Walks.bind (plain only_remaining grows_ready) fun left => ?_
  refine Walks.bind (plain (only_ask trivial) grows_ready) fun _ => ?_
  refine Walks.ensuring (hrequest.catching fun _ => raising) (fun token => ?_) ?_
  · exact keeping (only_ask trivial) stays_holding
  · exact keeping (only_ask trivial) fun _ _ _ _ => trivial

theorem fetchOidc_permitted {deadline : ℚ} : Permitted platform delivery envelope environ
    (At (connected 1) fun h => Validated platform delivery envelope environ h ∧ Pinned platform delivery h)
    (fetchOidc platform environ deadline)
    fun token => Holding platform delivery envelope environ token := by
  refine Walks.bind checking fun capability => fetchWith_permitted.weaken (fun h hP => ?_)
    (fun _ _ h => h) fun _ h => h
  exact ⟨hP.2.1, hP.2.2.1, hP.1, hP.2.2.2⟩

/-- The acknowledgement at the start of what the peer has sent. -/
def Acknowledged (platform : Platform) (envelope ack : Value) (h : Trace CallerAns) : Prop :=
  ∃ size data, (tally h).received = magic ++ size ++ data ++ trailer ∧ size.length = 4 ∧
    unpackSize size = data.length ∧ 0 < data.length ∧ data.length ≤ 4096 ∧
    decode platform.rt data = .ok ack ∧ isAck (envelope.get "operation_key") ack = true

theorem readAck_permitted {deadline : ℚ} {chunks : Bytes} {n m l : Nat} :
    Permitted platform delivery envelope environ (At ⟨n, m, l, chunks, []⟩ fun _ => True)
      (readAck platform (envelope.get "operation_key") deadline)
      fun ack => Acknowledged platform envelope ack := by
  have hK : Grows fun _ : Trace CallerAns => True := grows_const
  refine Walks.bind (readExact_permitted hK _ _) fun start => ?_
  refine walks_of_prop fun _ => ?_
  refine Walks.bind demanding fun _ => walks_of_prop ?_
  rintro rfl
  refine Walks.bind (readExact_permitted hK _ _) fun size => walks_of_prop fun hsize => ?_
  refine Walks.bind demanding fun _ => walks_of_prop fun hbound => ?_
  refine Walks.bind (readExact_permitted hK _ _) fun data => walks_of_prop fun hdata => ?_
  refine Walks.bind (readExact_permitted hK _ _) fun ending => ?_
  refine walks_of_prop fun _ => ?_
  refine Walks.bind demanding fun _ => walks_of_prop ?_
  rintro rfl
  refine Walks.bind checking fun ack => walks_of_prop fun hdecode => ?_
  refine Walks.bind demanding fun _ => walks_pure fun h hP => ?_
  refine ⟨size, data, ?_, hsize, hdata.symm, ?_, ?_, checked_eq_ok.mp hdecode, hP.1⟩
  · rw [hP.2.1]
    rfl
  · omega
  · omega

/-- The frame is sent once, after the inputs were accepted again. -/
theorem transmit_permitted {deadline : ℚ} {token : PyStr} : Permitted platform delivery envelope environ
    (Holding platform delivery envelope environ token)
    (transmit platform delivery envelope environ deadline token)
    fun ack => Acknowledged platform envelope ack := by
  refine walks_exists fun capability => walks_exists fun chunks => ?_
  let K (h : Trace CallerAns) : Prop := Ready platform delivery envelope environ capability h ∧
    Revalidated platform delivery envelope environ token h
  have hK : Grows K := grows_ready.and grows_revalidated
  have hvalidate : Permitted platform delivery envelope environ
      (fun h => At ⟨1, 1, 0, chunks, []⟩ (Ready platform delivery envelope environ capability) h ∧
        Fetched platform token ⟨1, 1, 0, chunks, []⟩)
      (validateNow platform delivery envelope environ) fun _ => At ⟨1, 1, 0, chunks, []⟩ K := by
    let Q (now : ℚ) (h : Trace CallerAns) : Prop := At ⟨1, 1, 0, chunks, []⟩
      (Ready platform delivery envelope environ capability) h ∧ ∃ pre, h = pre ++ [⟨.time, .ok now⟩] ∧
        Fetched platform token (tally pre)
    have htime : Permitted platform delivery envelope environ
        (fun h => At ⟨1, 1, 0, chunks, []⟩ (Ready platform delivery envelope environ capability) h ∧
          Fetched platform token ⟨1, 1, 0, chunks, []⟩) (ask .time) Q := by
      refine walks_call (fun _ _ => trivial) (fun h now hP => ?_) fun _ _ _ => trivial
      refine ⟨stays_at grows_ready h _ hP.1 trivial, h, rfl, ?_⟩
      rw [hP.1.1]
      exact hP.2
    refine Walks.bind htime fun now => ?_
    refine checking.weaken (fun _ h => h) (fun _ h hP => ?_) fun _ h => h
    obtain ⟨haccepted, ⟨htally, hready⟩, pre, rfl, hfetched⟩ := hP
    exact ⟨htally, hready, pre, [⟨.time, .ok now⟩], rfl, hfetched, now, List.mem_singleton_self _,
      checked_eq_ok.mp haccepted⟩
  refine Walks.bind updating fun _ => ?_
  refine Walks.bind updating fun _ => ?_
  refine Walks.bind hvalidate fun _ => ?_
  refine Walks.bind updating fun _ => ?_
  refine Walks.bind checking fun data => walks_of_prop fun hdata => ?_
  refine Walks.bind (plain only_remaining hK) fun left => ?_
  refine Walks.bind (plain (only_ask trivial) hK) fun _ => ?_
  have hsend : Permitted platform delivery envelope environ (At ⟨1, 1, 0, chunks, []⟩ K)
      (ask (.sendall (frameOf data))) fun _ => At ⟨1, 1, 1, chunks, []⟩ fun _ => True := by
    refine walks_call (fun h hat => ?_) (fun h a hat => ?_) fun _ _ _ => trivial
    · exact ⟨by rw [hat.1], ⟨capability, hat.2.1⟩, token, data, hat.2.2, checked_eq_ok.mp hdata, rfl⟩
    · rw [At, tally_snoc, hat.1]
      exact ⟨rfl, trivial⟩
  refine Walks.bind hsend fun _ => ?_
  exact Walks.bind updating fun _ => readAck_permitted

/-- **The body asks only what is permitted, and returns an acknowledgement of the peer.** -/
theorem sendBody_permitted : Permitted platform delivery envelope environ
    (At (connected 0) fun _ => True) (sendBody platform delivery envelope environ)
    fun ack => Acknowledged platform envelope ack := by
  have hV : Grows fun h => True ∧ Validated platform delivery envelope environ h :=
    grows_const.and grows_validated
  refine Walks.bind (validateNow_permitted grows_const) fun _ => ?_
  refine Walks.bind updating fun _ => ?_
  refine Walks.bind checking fun capability => walks_of_prop fun hcapability => ?_
  have hdeadline : Only IsPlain (deadlineOf delivery) :=
    (only_call trivial).bind fun _ => (only_call trivial).bind fun _ => only_pure
  refine Walks.bind (plain hdeadline hV) fun deadline => ?_
  refine Walks.bind (openPeer_permitted hV fun _ h => h.2) fun _ => ?_
  refine Walks.bind (checkPeer_permitted ((hV.and grows_mem).and grows_mem)) fun _ => ?_
  refine Walks.bind updating fun _ => ?_
  refine Walks.bind (fetchOidc_permitted.weaken (fun h hP => ?_) (fun _ _ h => h) fun _ h => h)
    fun token => transmit_permitted
  obtain ⟨htally, ⟨⟨⟨-, hvalid⟩, hconnect⟩, hhandshake⟩, hversion, hpin⟩ := hP
  exact ⟨htally, hvalid, hconnect, hhandshake, hversion, hpin⟩

/-! ## 5. The whole call -/

theorem stays_acknowledged {ack : Value} :
    Stays IsPlain (Acknowledged platform envelope ack) := by
  intro h e hack he
  rw [Acknowledged, tally_snoc, add_plain he]
  exact hack

theorem holdStage_permitted {P : Trace CallerAns → Prop} {reason : Option OidcHoldReason}
    {Q : Value → Trace CallerAns → Prop} :
    Permitted platform delivery envelope environ P (holdStage reason) Q :=
  Walks.bind (walks_read (Q := fun _ => P) fun _ _ hP => hP) fun _ => raising

theorem only_closeAll : Only IsPlain closeAll := by
  refine only_update.bind fun _ => only_read.bind fun s => ?_
  have hraw : Only IsPlain (do if (← Act.read).raw then ask .closeRaw : CallerAct Unit) := by
    refine only_read.bind fun s => ?_
    cases s.raw with
    | true => exact only_ask trivial
    | false => exact only_pure
  cases s.secure with
  | true => exact (only_call trivial).bind fun _ => hraw
  | false => exact hraw

/-- **The whole call asks only what is permitted.** -/
theorem sendOnce_permitted : Permitted platform delivery envelope environ
    (At (connected 0) fun _ => True) (sendOnce platform delivery envelope environ)
    fun ack => Acknowledged platform envelope ack := by
  have hclose {P : Trace CallerAns → Prop} (hP : Stays IsPlain P) :
      Permitted platform delivery envelope environ P
        (Act.catching closeAll fun _ => do let _ ← holdStage none) fun _ => P :=
    (keeping only_closeAll hP).catching fun _ => Walks.bind holdStage_permitted fun _ =>
      walks_pure fun _ hP => hP
  refine Walks.ensuring (sendBody_permitted.catching fun _ => holdStage_permitted) (fun ack => ?_) ?_
  · exact hclose stays_acknowledged
  · exact hclose fun _ _ _ _ => trivial

/-- **Whatever `send_once` raises is a `StageHeld`.** -/
theorem sendOnce_raises {tr : Trace CallerAns} {e : Raised} {s s' : Locals}
    (h : Ends (sendOnce platform delivery envelope environ) s tr (.error e) s') :
    ∃ stage reason, e = .stageHeld stage reason := by
  have hhold {x : CallerAct Value} {f : Raised → Option OidcHoldReason} {s s' : Locals}
      {tr : Trace CallerAns} {e : Raised}
      (h : Ends (Act.catching x fun e => holdStage (f e)) s tr (.error e) s') :
      ∃ stage reason, e = .stageHeld stage reason := by
    rcases ends_catching.mp h with ⟨a, ha, -⟩ | ⟨_, _, e', s₁, -, -, hend⟩
    · cases ha
    · rw [holdStage, ends_read_bind] at hend
      obtain ⟨-, he, -⟩ := ends_raise.mp hend
      exact ⟨_, _, Except.error.inj he⟩
  rw [sendOnce, Act.ensuring, ends_attempt_bind] at h
  obtain ⟨tr₁, tr₂, r, s₁, rfl, hbody, hlast⟩ := h
  rcases ends_bind.mp hlast with ⟨e', he, hclose⟩ | ⟨_, _, _, s₂, rfl, -, hend⟩
  · obtain rfl := Except.error.inj he
    rcases ends_catching.mp hclose with ⟨a, ha, -⟩ | ⟨_, _, _, s₃, -, -, hend⟩
    · cases ha
    · rcases ends_bind.mp hend with ⟨e'', he, hend⟩ | ⟨_, _, _, _, -, -, hend⟩
      · rw [holdStage, ends_read_bind] at hend
        obtain ⟨-, hraise, -⟩ := ends_raise.mp hend
        rw [Except.error.inj he]
        exact ⟨_, _, Except.error.inj hraise⟩
      · cases (ends_pure.mp hend).2.1
  · obtain ⟨-, hr, -⟩ := ends_ofExcept.mp hend
    rw [← hr] at hbody
    exact hhold hbody

/-- What is permitted at every moment happens at most once. -/
theorem tally_le {tr : Trace CallerAns} (h : ∀ pre e post, tr = pre ++ e :: post →
    Permits platform delivery envelope environ pre e.1) :
    (tally tr).connects ≤ 1 ∧ (tally tr).gets ≤ 1 ∧ (tally tr).sends ≤ 1 := by
  induction tr using List.reverseRecOn with
  | nil => exact ⟨Nat.zero_le _, Nat.zero_le _, Nat.zero_le _⟩
  | append_singleton tr e ih =>
    obtain ⟨hconnects, hgets, hsends⟩ := ih fun pre e' post heq => h pre e' (post ++ [e]) (by
      rw [heq, List.append_assoc, List.cons_append])
    have hlast := h tr e [] rfl
    rw [tally_snoc]
    obtain ⟨op, answer⟩ := e
    cases op with
    | connect ipv4 port =>
      have hnone : (tally tr).connects = 0 := hlast.1
      exact ⟨by
        change (tally tr).connects + 1 ≤ 1
        omega, hgets, hsends⟩
    | oidcGet target bearer =>
      have hnone : (tally tr).gets = 0 := hlast.1
      exact ⟨hconnects, by
        change (tally tr).gets + 1 ≤ 1
        omega, hsends⟩
    | sendall frame =>
      have hnone : (tally tr).sends = 0 := hlast.1
      exact ⟨hconnects, hgets, by
        change (tally tr).sends + 1 ≤ 1
        omega⟩
    | oidcRead limit =>
      cases answer with
      | ok chunk => exact ⟨hconnects, hgets, hsends⟩
      | error e => exact ⟨hconnects, hgets, hsends⟩
    | recv limit =>
      cases answer with
      | ok chunk => exact ⟨hconnects, hgets, hsends⟩
      | error e => exact ⟨hconnects, hgets, hsends⟩
    | _ => exact ⟨hconnects, hgets, hsends⟩

end

/-! ## 6. The size of a message -/

theorem length_joinComma (texts : List Bytes) :
    (joinComma texts).length = (texts.map fun text => text.length + 1).sum - 1 := by
  induction texts with
  | nil => rfl
  | cons text texts ih =>
    cases texts with
    | nil =>
      rw [joinComma, List.map_singleton, List.sum_singleton, Nat.add_sub_cancel]
    | cons next texts =>
      rw [joinComma, List.length_append, List.length_append, ih]
      · simp only [List.map_cons, List.sum_cons, List.length_singleton]
        omega
      · exact List.cons_ne_nil _ _

theorem dumpsEntries_snoc {float : PyFloat → Py Bytes} {depth : Nat}
    {entries : List (PyStr × Value)} {key s : PyStr} :
    dumpsEntries float depth (entries ++ [(key, .str s)]) =
      (dumpsEntries float depth entries).map fun texts => texts ++ [(key, jsonString s)] := by
  induction entries with
  | nil =>
    cases depth with
    | zero => rfl
    | succ depth => rfl
  | cons e entries ih =>
    obtain ⟨k, value⟩ := e
    rw [List.cons_append, dumpsEntries, dumpsEntries, ih]
    cases dumps float depth value with
    | error e => rfl
    | ok text =>
      cases dumpsEntries float depth entries with
      | error e => rfl
      | ok texts => rfl

/-- The text of a dict with one more text in it is as much longer as this one is. -/
theorem length_dumps_snoc {depth : Nat} {entries : List (PyStr × Value)} {key s t : PyStr}
    {text : Bytes} (h : dumps jsonFloat depth (.dict (entries ++ [(key, .str s)])) = .ok text) :
    ∃ text', dumps jsonFloat depth (.dict (entries ++ [(key, .str t)])) = .ok text' ∧
      text'.length + (jsonString s).length = text.length + (jsonString t).length := by
  cases depth with
  | zero =>
    rw [dumps] at h
    cases h
  | succ depth =>
    rw [dumps, dumpsEntries_snoc] at h
    simp only [dumps, dumpsEntries_snoc]
    cases hentries : dumpsEntries jsonFloat depth entries with
    | error e =>
      rw [hentries] at h
      cases h
    | ok texts =>
      rw [hentries] at h
      have hlength (s : PyStr) : (joinComma ((sortByKey (texts ++ [(key, jsonString s)])).map
          fun e => jsonString e.1 ++ [58] ++ e.2)).length =
            (texts.map fun e => (jsonString e.1 ++ [58] ++ e.2).length + 1).sum +
              ((jsonString key).length + 1 + (jsonString s).length) := by
        have hperm := (Json.perm_sortByKey (texts ++ [(key, jsonString s)])).map
          fun e => (jsonString e.1 ++ [58] ++ e.2).length + 1
        rw [length_joinComma, List.map_map]
        have hsum := hperm.sum_nat
        simp only [Function.comp_def, List.map_append, List.map_singleton, List.sum_append,
          List.sum_singleton, List.length_append, List.length_singleton] at hsum ⊢
        omega
      rw [← Except.ok.inj h]
      refine ⟨_, rfl, ?_⟩
      simp only [List.length_append, hlength]
      omega

theorem length_jsonString {s : PyStr} (h : ∀ c ∈ s.codePoints, isTokenChar c = true ∨ c = 46) :
    (jsonString s).length = s.length + 2 := by
  have hchar : ∀ c, isTokenChar c = true ∨ c = 46 → (jsonEscape c).length = 1 := by
    intro c hc
    simp only [isTokenChar, isUpper, isLower, PyStr.isDigit, Bool.or_eq_true, Bool.and_eq_true,
      decide_eq_true_eq] at hc
    rw [jsonEscape, if_neg (by omega), if_neg (by omega), if_neg (by omega), if_neg (by omega),
      if_neg (by omega), if_neg (by omega), if_neg (by omega), if_pos (by omega)]
    rfl
  have hflat : (s.codePoints.flatMap jsonEscape).length = s.codePoints.length := by
    obtain ⟨points⟩ := s
    induction points with
    | nil => rfl
    | cons c points ih =>
      obtain ⟨hc, hrest⟩ := List.forall_mem_cons.mp h
      have htail : (points.flatMap jsonEscape).length = points.length := ih hrest
      rw [List.flatMap_cons, List.length_append, hchar c hc, htail, List.length_cons]
      omega
  simp only [jsonString, List.length_append, List.length_singleton, hflat, PyStr.length]
  omega

theorem asHeld_eq_ok {α : Type} {message : String} {x : Py α} {a : α} :
    asHeld message x = .ok a ↔ x = .ok a := by
  cases x with
  | ok b => exact Iff.rfl
  | error e =>
    rw [asHeld]
    split
    · exact iff_of_false (by intro h; cases h) (by intro h; cases h)
    · exact iff_of_false (by intro h; cases h) (by intro h; cases h)

theorem canonical_eq_ok {rt : Runtime} {value : Value} {data : Bytes} :
    canonical rt value = .ok data ↔ ∃ text, Supplementary.canonical rt value = .ok text ∧
      text.length + 1 ≤ maxBody ∧ data = text ++ [10] := by
  rw [canonical, asHeld_eq_ok, bind_eq_ok]
  refine exists_congr fun text => and_congr Iff.rfl ?_
  rw [bind_eq_ok]
  constructor
  · rintro ⟨_, hfits, hdata⟩
    have hsize := (raiseUnless_eq_ok.mp hfits).2
    rw [List.length_append, List.length_singleton] at hsize
    exact ⟨hsize, (Except.ok.inj hdata).symm⟩
  · rintro ⟨hsize, rfl⟩
    refine ⟨(), raiseUnless_of ?_, rfl⟩
    rw [List.length_append, List.length_singleton]
    omega

/-- What a token is made of. -/
theorem tokenChar_of_isToken {token : PyStr} (h : isToken token = true) :
    ∀ c ∈ token.codePoints, isTokenChar c = true ∨ c = 46 := by
  simp only [isToken, Bool.and_eq_true, decide_eq_true_eq, List.all_eq_true] at h
  intro c hc
  rcases mem_splitOn '.'.toNat hc with rfl | ⟨part, hpart, hmem⟩
  · exact Or.inr rfl
  · exact Or.inl ((h.2 ⟨part⟩ (List.mem_map_of_mem hpart)).2 c hmem)

/-- **There is room for every token** where there is room for the longest. -/
theorem canonical_token {rt : Runtime} {envelope : Value} {data : Bytes} {token : PyStr}
    (hdict : envelope.isDict = true) (hkeys : envelope.hasKeys envelopeFields = true)
    (h : canonical rt (envelope.set "oidc" (.str longestToken)) = .ok data)
    (htoken : isToken token = true) : ∃ data, canonical rt (messageOf envelope token) = .ok data := by
  obtain ⟨entries, rfl⟩ : ∃ entries, envelope = .dict entries := by
    cases envelope with
    | dict entries => exact ⟨entries, rfl⟩
    | _ => cases hdict
  have hnew : ("oidc" : PyStr) ∉ entries.map Prod.fst := by
    simp only [Value.hasKeys, Bool.and_eq_true, decide_eq_true_eq] at hkeys
    intro hmem
    exact absurd (hkeys.1 hmem) (by decide)
  have hset (s : PyStr) : (Value.dict entries).set "oidc" (.str s) =
      .dict (entries ++ [(("oidc" : PyStr), Value.str s)]) := by
    rw [Value.set, dictSet, if_neg hnew]
  rw [hset] at h
  obtain ⟨text, htext, hfits, -⟩ := canonical_eq_ok.mp h
  obtain ⟨text', htext', hlength⟩ := @length_dumps_snoc _ _ _ _ token _ htext
  have hlong : (jsonString longestToken).length = maxOidc + 2 := by
    rw [length_jsonString, longestToken, PyStr.length, List.length_replicate]
    intro c hc
    rw [List.eq_of_mem_replicate hc]
    exact Or.inl rfl
  have hshort : (jsonString token).length ≤ maxOidc + 2 := by
    rw [length_jsonString (tokenChar_of_isToken htoken)]
    simp only [isToken, Bool.and_eq_true, decide_eq_true_eq] at htoken
    exact Nat.add_le_add_right htoken.1.1 2
  refine ⟨text' ++ [10], canonical_eq_ok.mpr ⟨text', ?_, by omega, rfl⟩⟩
  rw [messageOf, hset]
  exact htext'

/-! ## 7. One send -/

section

variable {platform : Platform} {delivery envelope environ : Value}

/-- Every token that comes back is one. -/
theorem isToken_fetched {deadline : ℚ} {token : PyStr} {tr : Trace CallerAns} {s s' : Locals}
    (h : Ends (fetchOidc platform environ deadline) s tr (.ok token) s') : isToken token = true := by
  have hrequest {capability : Capability} {s s' : Locals} {tr : Trace CallerAns} {token : PyStr}
      (h : Ends (requestToken platform capability deadline) s tr (.ok token) s') :
      isToken token = true := by
    obtain ⟨_, _, _, _, -, -, h⟩ := ends_bind_ok.mp h
    obtain ⟨_, _, _, _, -, -, h⟩ := ends_bind_ok.mp h
    obtain ⟨_, _, _, _, -, -, h⟩ := ends_bind_ok.mp h
    obtain ⟨_, _, _, _, -, -, h⟩ := ends_bind_ok.mp h
    obtain ⟨_, _, _, _, -, -, h⟩ := ends_bind_ok.mp h
    obtain ⟨_, _, result, _, -, -, h⟩ := ends_bind_ok.mp h
    obtain ⟨_, _, _, _, -, hdemand, h⟩ := ends_bind_ok.mp h
    have hchecked := (ends_lift.mp hdemand).2.1
    have hform := (raiseUnless_eq_ok.mp (checked_eq_ok.mp hchecked.symm)).2
    obtain ⟨-, htoken, -⟩ := ends_pure.mp h
    rw [Except.ok.inj htoken]
    cases hget : result.get "value" with
    | str s =>
      rw [hget] at hform
      exact hform
    | _ =>
      rw [hget] at hform
      cases hform
  obtain ⟨_, _, capability, _, -, -, h⟩ := ends_bind_ok.mp h
  obtain ⟨_, _, _, _, -, -, h⟩ := ends_bind_ok.mp h
  obtain ⟨_, _, _, _, -, -, h⟩ := ends_bind_ok.mp h
  obtain ⟨_, _, _, _, -, -, h⟩ := ends_bind_ok.mp h
  rw [Act.ensuring, ends_attempt_bind] at h
  obtain ⟨_, _, r, _, -, hcaught, h⟩ := h
  obtain ⟨_, _, _, _, -, -, h⟩ := ends_bind_ok.mp h
  obtain ⟨-, hr, -⟩ := ends_ofExcept.mp h
  rw [← hr] at hcaught
  rcases ends_catching.mp hcaught with ⟨a, ha, hends⟩ | ⟨_, _, _, _, -, -, hend⟩
  · rw [Except.ok.inj ha]
    exact hrequest hends
  · cases (ends_raise.mp hend).2.1

/-- **One call spends its token at most once, and only on the pinned peer.** -/
theorem send_once_pinned :
    (∀ tr op, Asks (sendOnce platform delivery envelope environ) started tr op →
      Permits platform delivery envelope environ tr op) ∧
    (∀ tr r s', Ends (sendOnce platform delivery envelope environ) started tr r s' →
      ((tally tr).connects ≤ 1 ∧ (tally tr).gets ≤ 1 ∧ (tally tr).sends ≤ 1) ∧
      (∀ ack, r = .ok ack → Acknowledged platform envelope ack tr) ∧
      ∀ e, r = .error e → ∃ stage reason, e = .stageHeld stage reason) ∧
    ∀ context now deadline token s tr s',
      validateInputs platform.rt delivery envelope context now = .ok () →
      Ends (fetchOidc platform environ deadline) s tr (.ok token) s' →
        ∃ data, canonical platform.rt (messageOf envelope token) = .ok data := by
  have hpermitted := @sendOnce_permitted platform delivery envelope environ [] started ⟨rfl, trivial⟩
  refine ⟨fun tr op hop => hpermitted.1 tr op hop, fun tr r s' hends => ⟨?_, ?_, ?_⟩, ?_⟩
  · refine @tally_le platform delivery envelope environ tr fun pre e post heq => ?_
    subst heq
    have hasked := Returns.prefix hends
    exact hpermitted.1 pre e.1 hasked
  · rintro ack rfl
    exact hpermitted.2.1 tr ack s' hends
  · rintro e rfl
    exact sendOnce_raises hends
  · intro context now deadline token s tr s' hvalid hends
    simp only [validateInputs, bind_eq_ok] at hvalid
    obtain ⟨observed, -, _, -, _, -, _, henvelope, _, -, _, -, _, -, data, hdata, -⟩ := hvalid
    have hheld := raiseUnless_eq_ok.mp henvelope
    exact canonical_token hheld.1 hheld.2.1 hdata (isToken_fetched hends)

end

end Supplementary.Caller
