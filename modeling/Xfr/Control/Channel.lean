import Mathlib.Data.List.Infix
import Mathlib.Data.List.Nodup
import Mathlib.Data.Set.Function
import Xfr.Control.Codec
import Xfr.Library.System

-- Different labels are expanded to different keys, as those of a pseudorandom function are.
def Hkdf.Separates (hkdf : Hkdf) (prk : Bytes) (labels : Set Bytes) : Prop :=
  labels.InjOn (hkdf.expand prk · 32)

-- What was put into the cipher and what came out of it.
structure Encryption where
  key        : Bytes
  nonce      : Bytes
  aad        : Bytes
  msg        : Bytes
  ciphertext : Bytes

-- Both sides of a control connection whose frames are in the hands of an adversary. Next to the
-- codecs we remember what was encrypted, under which keys and nonces the sealed frames were made,
-- and which messages were sealed and accepted.
structure Channel where
  sender      : Direction → ControlCodec
  receiver    : Direction → ControlCodec
  encryptions : List Encryption
  frames      : List (Bytes × Bytes)
  sealed      : Direction → List Bytes
  accepted    : Direction → List Bytes

namespace Channel

def connect (client server : Codecs) : Channel where
  sender
    | .c2s => client.send
    | .s2c => server.send
  receiver
    | .c2s => server.recv
    | .s2c => client.recv
  encryptions := []
  frames      := []
  sealed _    := []
  accepted _  := []

inductive Event
  | send (d : Direction) (plaintext : Bytes)
  -- The adversary hands over any payload at all, whether or not it was ever sealed.
  | deliver (d : Direction) (payload : Bytes)

-- Encrypting is remembered even if the frame is lost because the sequence numbers are exhausted.
def encryption (aead : Aead) (c : ControlCodec) (plaintext : Bytes) : List Encryption :=
  (aead.encrypt c.key c.nonce c.aad plaintext).toList.map (⟨c.key, c.nonce, c.aad, plaintext, ·⟩)

-- An ideal cipher opens a ciphertext only if it was encrypted under the same key, nonce and
-- associated data.
def Unforged (aead : Aead) (s : Channel) (c : ControlCodec) (ciphertext : Bytes) : Prop :=
  (aead.decrypt c.key c.nonce c.aad ciphertext).isSome →
    ∃ e ∈ s.encryptions,
      e.key = c.key ∧ e.nonce = c.nonce ∧ e.aad = c.aad ∧ e.ciphertext = ciphertext

instance {aead : Aead} {s : Channel} {c : ControlCodec} {ciphertext : Bytes} :
    Decidable (Unforged aead s c ciphertext) :=
  inferInstanceAs <| Decidable (_ → _)

def send (aead : Aead) (s : Channel) (d : Direction) (plaintext : Bytes) : Channel :=
  let c := s.sender d
  let s := { s with encryptions := s.encryptions ++ encryption aead c plaintext }
  match c.sealMessage aead plaintext with
  | (.ok _, c') =>
    { s with
      sender   := Function.update s.sender d c'
      frames   := s.frames ++ [(c.key, c.nonce)]
      sealed   := Function.update s.sealed d (s.sealed d ++ [plaintext]) }
  | (.error _, c') => { s with sender := Function.update s.sender d c' }

def deliver (aead : Aead) (s : Channel) (d : Direction) (payload : Bytes) : Channel :=
  match (s.receiver d).openPayload aead payload with
  | (.ok plaintext, c') =>
    { s with
      receiver := Function.update s.receiver d c'
      accepted := Function.update s.accepted d (s.accepted d ++ [plaintext]) }
  | (.error _, c') => { s with receiver := Function.update s.receiver d c' }

def step (aead : Aead) : System Channel Event
  | s, .send d plaintext  => some <| s.send aead d plaintext
  | s, .deliver d payload =>
    if Unforged aead s (s.receiver d) (payload.drop 8) then some <| s.deliver aead d payload else none

structure Valid (aead : Aead) (keys : Direction → Bytes) (s : Channel) : Prop where
  sender_key   : ∀ d, (s.sender d).key = keys d
  sender_dir   : ∀ d, (s.sender d).direction = d
  sender_seq   : ∀ d, (s.sender d).seq.toNat = (s.sealed d).length
  receiver_dir : ∀ d, (s.receiver d).direction = d
  receiver_seq : ∀ d, (s.receiver d).seq.toNat = (s.accepted d).length
  accepted     : ∀ d, s.accepted d <+: s.sealed d
  -- The one message which can be encrypted and not be sealed is the one under the last number.
  encrypted    : ∀ e ∈ s.encryptions,
                   aead.encrypt e.key e.nonce e.aad e.msg = some e.ciphertext ∧
                   ∃ c : ControlCodec, c.aad = e.aad ∧
                     ((s.sealed c.direction)[c.seq.toNat]? = some e.msg ∨ c.advance = none)
  numbered     : ∀ f ∈ s.frames, ∃ c : ControlCodec, f = (c.key, c.nonce) ∧
                   c.key = keys c.direction ∧ c.seq.toNat < (s.sealed c.direction).length
  nodup        : s.frames.Nodup

namespace Valid

variable {aead : Aead} {keys : Direction → Bytes} {s : Channel}

theorem connect {c2s s2c : ControlCodec} (hc : c2s.direction = .c2s ∧ c2s.seq = 0)
    (hs : s2c.direction = .s2c ∧ s2c.seq = 0) :
    Valid aead (fun | .c2s => c2s.key | .s2c => s2c.key)
      (.connect (.protectedClient c2s s2c) (.protectedServer c2s s2c)) := by
  constructor
  all_goals try rintro ⟨⟩
  all_goals simp_all [Channel.connect, Codecs.protectedClient, Codecs.protectedServer]

theorem getElem?_of_prefix {α : Type*} {as bs : List α} {i : Nat} {a : α} (h : as <+: bs)
    (ha : as[i]? = some a) : bs[i]? = some a := by
  have ⟨hi, ha⟩ := List.getElem?_eq_some_iff.mp ha
  exact ha ▸ List.prefix_iff_getElem?.mp h i hi

theorem concat_prefix {α : Type*} {as bs : List α} {a : α} (h : as <+: bs)
    (ha : bs[as.length]? = some a) : as ++ [a] <+: bs := by
  have ⟨cs, hc⟩ := h
  subst hc
  cases cs
  case nil       => simp at ha
  case cons c cs =>
    have : c = a := by simpa using ha
    exact ⟨cs, by simp [this]⟩

-- A message which is encrypted under the current number is either sealed next or lost for good.
theorem encrypted_send (v : Valid aead keys s) {d : Direction} {plaintext : Bytes}
    {sealed : Direction → List Bytes} (hs : ∀ d, s.sealed d <+: sealed d)
    (hd : aead.encrypt (s.sender d).key (s.sender d).nonce (s.sender d).aad plaintext = none ∨
      (s.sender d).advance = none ∨ (sealed d)[(s.sealed d).length]? = some plaintext) :
    ∀ e ∈ s.encryptions ++ encryption aead (s.sender d) plaintext,
      aead.encrypt e.key e.nonce e.aad e.msg = some e.ciphertext ∧
      ∃ c : ControlCodec, c.aad = e.aad ∧
        ((sealed c.direction)[c.seq.toNat]? = some e.msg ∨ c.advance = none) := by
  intro e he
  rcases List.mem_append.mp he with he | he
  case inl =>
    have ⟨henc, c, ha, hc⟩ := v.encrypted e he
    exact ⟨henc, c, ha, hc.imp_left <| getElem?_of_prefix (hs c.direction)⟩
  case inr =>
    simp only [encryption, List.mem_map, Option.mem_toList] at he
    have ⟨ciphertext, henc, he⟩ := he
    subst he
    refine ⟨henc, s.sender d, rfl, ?_⟩
    rw [v.sender_dir, v.sender_seq]
    simpa [henc, or_comm] using hd

theorem prefix_update {d : Direction} {plaintext : Bytes} (d' : Direction) :
    s.sealed d' <+: Function.update s.sealed d (s.sealed d ++ [plaintext]) d' := by
  by_cases h : d' = d
  case pos => simp [h]
  case neg => simp [h]

theorem send (v : Valid aead keys s) (hk : Function.Injective keys) (d : Direction)
    (plaintext : Bytes) : Valid aead keys (s.send aead d plaintext) := by
  cases hm : (s.sender d).sealMessage aead plaintext with | mk r c' =>
  cases r
  case error e =>
    have ⟨hc, ha⟩ := ControlCodec.sealMessage_error hm
    subst hc
    simp only [Channel.send, hm, Function.update_eq_self]
    exact { v with encrypted := v.encrypted_send (fun _ => List.prefix_rfl) (ha.imp_right .inl) }
  case ok frame =>
    have ⟨ha, _⟩ := ControlCodec.sealMessage_eq_ok_iff.mp hm
    have hn := ControlCodec.advance_seq ha
    have ⟨_, hc⟩ := ControlCodec.advance_eq_some_iff.mp ha
    have hlt : ∀ d', (s.sealed d').length ≤
        (Function.update s.sealed d (s.sealed d ++ [plaintext]) d').length :=
      fun d' => (prefix_update d').length_le
    simp only [Channel.send, hm]
    constructor
    case receiver_dir => exact v.receiver_dir
    case receiver_seq => exact v.receiver_seq
    case accepted     => exact fun d' => (v.accepted d').trans (prefix_update d')
    case encrypted    => exact v.encrypted_send prefix_update (.inr <| .inr <| by simp)
    case sender_key =>
      intro d'
      by_cases h : d' = d
      case pos => simp [h, hc, v.sender_key d]
      case neg => simp [h, v.sender_key d']
    case sender_dir =>
      intro d'
      by_cases h : d' = d
      case pos => simp [h, hc, v.sender_dir d]
      case neg => simp [h, v.sender_dir d']
    case sender_seq =>
      intro d'
      by_cases h : d' = d
      case pos => simp [h, hn, v.sender_seq d]
      case neg => simp [h, v.sender_seq d']
    case numbered =>
      intro f hf
      rcases List.mem_append.mp hf with hf | hf
      case inl =>
        have ⟨c, hf, hk, hc⟩ := v.numbered f hf
        exact ⟨c, hf, hk, hc.trans_le (hlt c.direction)⟩
      case inr =>
        refine ⟨s.sender d, List.mem_singleton.mp hf, ?_, ?_⟩
        · rw [v.sender_dir, v.sender_key]
        · simp [v.sender_dir, v.sender_seq]
    case nodup =>
      -- A frame with the same key has the same direction, and an earlier number.
      refine List.nodup_append.mpr ⟨v.nodup, List.nodup_singleton _, ?_⟩
      intro f hf f' hf' he
      have ⟨c, hfc, hkc, hnc⟩ := v.numbered f hf
      rw [he, List.mem_singleton.mp hf', Prod.mk.injEq] at hfc
      have hd : c.direction = d := hk <| by rw [← hkc, ← hfc.left, v.sender_key]
      have hs := ControlCodec.nonce_injective hfc.right
      rw [hd, ← hs, v.sender_seq] at hnc
      exact absurd hnc (Nat.lt_irrefl _)

-- Whatever the adversary hands over, it is accepted only if it is the next sealed message.
theorem deliver (v : Valid aead keys s) {d : Direction} {payload : Bytes}
    (hu : Unforged aead s (s.receiver d) (payload.drop 8)) :
    Valid aead keys (s.deliver aead d payload) := by
  cases hm : (s.receiver d).openPayload aead payload with | mk r c' =>
  cases r
  case error e =>
    have hc := ControlCodec.openPayload_error hm
    subst hc
    simp only [Channel.deliver, hm, Function.update_eq_self]
    exact v
  case ok plaintext =>
    have ⟨_, _, hd, ha⟩ := ControlCodec.openPayload_eq_ok_iff.mp hm
    have hn := ControlCodec.advance_seq ha
    have ⟨hlt, hc⟩ := ControlCodec.advance_eq_some_iff.mp ha
    have ⟨e, he, hkey, hnonce, haad, hct⟩ := hu (by simp [hd])
    have ⟨henc, c, hca, hcs⟩ := v.encrypted e he
    have hmsg : e.msg = plaintext := by
      have := aead.decrypt_encrypt henc
      rw [hkey, hnonce, haad, hct, hd] at this
      exact (Option.some_inj.mp this).symm
    have ⟨hseq, hdir⟩ := ControlCodec.aad_injective (hca.trans haad)
    have hnext : (s.sealed d)[(s.accepted d).length]? = some plaintext := by
      rw [v.receiver_dir] at hdir
      rw [hdir, hseq, v.receiver_seq, hmsg] at hcs
      refine hcs.resolve_right fun hx => absurd hlt (Nat.not_lt_of_le ?_)
      exact hseq ▸ ControlCodec.advance_eq_none_iff.mp hx
    simp only [Channel.deliver, hm]
    constructor
    case sender_key => exact v.sender_key
    case sender_dir => exact v.sender_dir
    case sender_seq => exact v.sender_seq
    case encrypted  => exact v.encrypted
    case numbered   => exact v.numbered
    case nodup      => exact v.nodup
    case receiver_dir =>
      intro d'
      by_cases h : d' = d
      case pos => simp [h, hc, v.receiver_dir d]
      case neg => simp [h, v.receiver_dir d']
    case receiver_seq =>
      intro d'
      by_cases h : d' = d
      case pos => simp [h, hn, v.receiver_seq d]
      case neg => simp [h, v.receiver_seq d']
    case accepted =>
      intro d'
      by_cases h : d' = d
      case neg => simpa [h] using v.accepted d'
      case pos =>
        subst h
        simpa using concat_prefix (v.accepted d') hnext

theorem step (v : Valid aead keys s) (hk : Function.Injective keys) {e : Event} {s' : Channel}
    (h : Channel.step aead s e = some s') : Valid aead keys s' := by
  cases e <;> simp only [Channel.step] at h
  case send d plaintext => exact Option.some_inj.mp h ▸ v.send hk d plaintext
  case deliver d payload =>
    split at h
    case isTrue hu => exact Option.some_inj.mp h ▸ v.deliver hu
    case isFalse   => contradiction

end Valid

section Derivation

variable {hkdf : Hkdf} {clientNonce serverNonce keyMaterial : Bytes} {c2s s2c : ControlCodec}

theorem derivePair_eq
    (h : ControlCodec.derivePair hkdf clientNonce serverNonce keyMaterial = .ok (c2s, s2c)) :
    c2s = .new c2s.key .c2s ∧ s2c = .new s2c.key .s2c := by
  unfold ControlCodec.derivePair at h
  cases hk : deriveKeys hkdf clientNonce serverNonce keyMaterial with
  | error e => simp [hk, bind, Except.bind] at h
  | ok keys =>
    simp only [hk, bind, Except.bind, pure, Except.pure, Except.ok.injEq, Prod.mk.injEq] at h
    simp [← h.left, ← h.right, ControlCodec.new]

-- The key of a direction is what its label is expanded to.
theorem expand_of_derivePair
    (h : ControlCodec.derivePair hkdf clientNonce serverNonce keyMaterial = .ok (c2s, s2c)) :
    hkdf.expand (hkdf.extract (clientNonce ++ serverNonce) keyMaterial) Direction.c2s.info 32 =
        some c2s.key ∧
      hkdf.expand (hkdf.extract (clientNonce ++ serverNonce) keyMaterial) Direction.s2c.info 32 =
        some s2c.key := by
  unfold ControlCodec.derivePair deriveKeys at h
  generalize hkdf.extract (clientNonce ++ serverNonce) keyMaterial = prk at h ⊢
  cases hc : hkdf.expand prk Direction.c2s.info 32
  case none   => simp [hc, bind, Except.bind] at h
  case some k =>
    cases hs : hkdf.expand prk Direction.s2c.info 32
    case none    => simp [hc, hs, bind, Except.bind] at h
    case some k' =>
      cases ha : hkdf.expand prk (Bytes.ascii "xfr-protected-control-s2c-auth") 32
      case none   => simp [hc, hs, ha, bind, Except.bind] at h
      case some _ =>
        simp only [hc, hs, ha, bind, Except.bind, pure, Except.pure, Option.elim_some,
          Except.ok.injEq, Prod.mk.injEq] at h
        simp [← h.left, ← h.right, ControlCodec.new]

theorem keys_ne (separates : hkdf.Separates
      (hkdf.extract (clientNonce ++ serverNonce) keyMaterial) (Set.range Direction.info))
    (h : ControlCodec.derivePair hkdf clientNonce serverNonce keyMaterial = .ok (c2s, s2c)) :
    c2s.key ≠ s2c.key := by
  have ⟨hc, hs⟩ := expand_of_derivePair h
  intro hk
  have hi := separates ⟨.c2s, rfl⟩ ⟨.s2c, rfl⟩ (hc.trans <| hk ▸ hs.symm)
  exact absurd (Direction.info_injective hi) (by decide)

end Derivation

-- The protected channel in the hands of an adversary: each side accepts a prefix of what the other
-- side sealed, a refused payload leaves no trace, and no key and nonce are used for two frames.
theorem adversary_run (aead : Aead) (hkdf : Hkdf) {clientNonce serverNonce keyMaterial : Bytes}
    {c2s s2c : ControlCodec}
    (derived : ControlCodec.derivePair hkdf clientNonce serverNonce keyMaterial = .ok (c2s, s2c))
    (separates : hkdf.Separates (hkdf.extract (clientNonce ++ serverNonce) keyMaterial)
      (Set.range Direction.info)) {events : List Event} {s : Channel}
    (run : (step aead).run
      (connect (.protectedClient c2s s2c) (.protectedServer c2s s2c)) events = some s) :
    (∀ d, s.accepted d <+: s.sealed d) ∧
    (∀ d payload e c, (s.receiver d).openPayload aead payload = (.error e, c) →
      c = s.receiver d) ∧
    s.frames.Nodup := by
  have ⟨hc, hs⟩ := derivePair_eq derived
  have hk : Function.Injective (fun | .c2s => c2s.key | .s2c => s2c.key : Direction → Bytes) := by
    have hne := keys_ne separates derived
    rintro ⟨⟩ ⟨⟩ h
    exacts [rfl, absurd h hne, absurd h.symm hne, rfl]
  have init : Valid aead _ (connect (.protectedClient c2s s2c) (.protectedServer c2s s2c)) :=
    Valid.connect (by rw [hc]; exact ⟨rfl, rfl⟩) (by rw [hs]; exact ⟨rfl, rfl⟩)
  have v := System.run_invariant (Valid.step · hk) init run
  exact ⟨v.accepted, fun _ _ _ _ h => ControlCodec.openPayload_error h, v.nodup⟩

-- A cipher which puts everything it authenticates in front of the message, and a key derivation
-- which puts the label in front of the secret.
def transparent : Aead where
  encrypt key nonce aad msg := some (key ++ nonce ++ aad ++ msg)
  decrypt key nonce aad ciphertext :=
    if key ++ nonce ++ aad <+: ciphertext then
      some (ciphertext.drop (key ++ nonce ++ aad).length)
    else
      none
  decrypt_encrypt h := by simp [← Option.some_inj.mp h]

def labelled : Hkdf where
  extract salt ikm       := salt ++ ikm
  expand prk info length := some <| (info ++ prk ++ List.replicate length 0).take length

-- The adversary replays the first frame, reflects it, and truncates the second one.
def replay : List Event :=
  let c2s : ControlCodec := .new (Direction.c2s.info ++ List.replicate 7 0) .c2s
  let first := Bytes.toLe 8 0 ++ c2s.key ++ c2s.nonce ++ c2s.aad ++ [7]
  let second := Bytes.toLe 8 1 ++ c2s.key ++ { c2s with seq := 1 }.nonce ++ { c2s with seq := 1 }.aad
  [
    .send .c2s [7], .send .c2s [8],
    .deliver .c2s first, .deliver .c2s first, .deliver .s2c first,
    .deliver .c2s (second.take 30), .deliver .c2s (second ++ [8])
  ]

theorem separates_labelled {prk : Bytes} : labelled.Separates prk (Set.range Direction.info) := by
  rintro _ ⟨d, rfl⟩ _ ⟨d', rfl⟩ h
  have hl (d : Direction) : d.info.length = 25 := by cases d <;> decide
  -- The label is what an expansion starts with.
  have label (d : Direction) :
      ((d.info ++ prk ++ List.replicate 32 0).take 32).take 25 = d.info := by
    rw [List.take_take, List.append_assoc]
    exact List.take_left' (hl d)
  have he := congrArg (List.take 25) (Option.some_inj.mp h)
  rwa [label, label] at he

theorem adversary_run_replay :
    ∃ c2s s2c s, ControlCodec.derivePair labelled [] [] [] = .ok (c2s, s2c) ∧
      (step transparent).run (connect (.protectedClient c2s s2c) (.protectedServer c2s s2c)) replay =
        some s ∧
      s.accepted .c2s = [[7], [8]] ∧ s.accepted .s2c = [] ∧ s.frames.Nodup := by
  let c2s : ControlCodec := .new (Direction.c2s.info ++ List.replicate 7 0) .c2s
  let s2c : ControlCodec := .new (Direction.s2c.info ++ List.replicate 7 0) .s2c
  let channel := connect (.protectedClient c2s s2c) (.protectedServer c2s s2c)
  have hd : ControlCodec.derivePair labelled [] [] [] = .ok (c2s, s2c) := by rfl
  have ha : ((step transparent).run channel replay).map (fun s => (s.accepted .c2s, s.accepted .s2c)) =
    some ([[7], [8]], []) := by decide
  have ⟨s, hr, hs⟩ := Option.map_eq_some_iff.mp ha
  have ⟨_, _, hn⟩ := adversary_run transparent labelled hd separates_labelled hr
  have ⟨hc, hs⟩ := Prod.mk.inj hs
  exact ⟨c2s, s2c, s, hd, hr, hc, hs, hn⟩

end Channel
