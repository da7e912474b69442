import Libjingle.P2p.PortAllocator

/-!
# A ledger of candidates

What a port allocator session does to candidates, without its states and phases: the ports with what
they have produced, the protocols of each sequence, and the history.

## Results

* **`Ledger.Sound.step`**: every step keeps the books and the property, as long as the candidates
  are distinct. `Ledger.Sound.steps`: so does every run.
-/

namespace Libjingle.AllocatorSession

open Lib

variable {κ : Type*}

/-! ## Readings of a history -/

def production : AllocatorEntry κ → Option (Nat × κ)
  | .produced port c _ => some (port, c)
  | _ => none

/-- The candidates that a signal passes on. -/
def passedOn : AllocatorEntry κ → List κ
  | .candidatesReady cs => cs
  | _ => []

/-- All that the ports have produced. -/
def productions (log : List (AllocatorEntry κ)) : List (Nat × κ) := log.filterMap production

/-- All candidates that have been announced. -/
def announced (log : List (AllocatorEntry κ)) : List κ := log.flatMap passedOn

def producedBy (log : List (AllocatorEntry κ)) (port : Nat) : List κ :=
  ((productions log).filter fun p => p.1 = port).map Prod.snd

/-- The ports have produced pairwise distinct candidates. -/
def Distinct (log : List (AllocatorEntry κ)) : Prop := ((productions log).map Prod.snd).Nodup

/-- The protocol of a candidate is enabled for the sequence of the port that has produced it. -/
def Open (protocol : κ → Text) (log : List (AllocatorEntry κ)) (c : κ) : Prop :=
  ∃ port seq complete proto, .produced port c complete ∈ log ∧ .portAdded port seq ∈ log ∧
    stringToProto (protocol c) = some proto ∧ .enabled seq proto ∈ log

/-- A port that still exists has produced the candidate before it became complete, and its protocol
is enabled. -/
def Due (protocol : κ → Text) (log : List (AllocatorEntry κ)) (c : κ) : Prop :=
  ∃ port seq proto, .produced port c false ∈ log ∧ .portAdded port seq ∈ log ∧
    .portDestroyed port ∉ log ∧ stringToProto (protocol c) = some proto ∧ .enabled seq proto ∈ log

/-- **Candidates are announced once**, when they may be and as soon as they must be. -/
structure AnnouncedOnce (protocol : κ → Text) (log : List (AllocatorEntry κ)) : Prop where
  once : (announced log).Nodup
  gated : ∀ pre cs post, log = pre ++ .candidatesReady cs :: post → ∀ c ∈ cs, Open protocol pre c
  passed : ∀ c, Due protocol log c → c ∈ announced log
  prompt : ∀ pre e post, log = pre ++ e :: post → ∀ c, Due protocol (pre ++ [e]) c →
    ¬ Due protocol pre c → ∃ cs post', post = .candidatesReady cs :: post' ∧ c ∈ cs

/-- The signal for some candidates, if there are any. -/
def announcement (cs : List κ) : List (AllocatorEntry κ) :=
  if cs ≠ [] then [.candidatesReady cs] else []

section

variable {protocol : κ → Text} {log : List (AllocatorEntry κ)} {e : AllocatorEntry κ}
  {cs : List κ} {c : κ}

@[simp] theorem announcement_nil : announcement ([] : List κ) = [] := rfl

theorem announcement_of_ne (h : cs ≠ []) : announcement cs = [.candidatesReady cs] := if_pos h

theorem mem_announcement : e ∈ announcement cs → e = .candidatesReady cs := by
  unfold announcement
  split
  · exact List.mem_singleton.mp
  · exact fun h => absurd h List.not_mem_nil

@[simp] theorem announced_announcement : announced (announcement cs) = cs := by
  by_cases h : cs = []
  · rw [h]
    rfl
  · rw [announcement_of_ne h]
    exact List.append_nil cs

@[simp] theorem announced_append (l₁ l₂ : List (AllocatorEntry κ)) :
    announced (l₁ ++ l₂) = announced l₁ ++ announced l₂ := List.flatMap_append

@[simp] theorem productions_append (l₁ l₂ : List (AllocatorEntry κ)) :
    productions (l₁ ++ l₂) = productions l₁ ++ productions l₂ := List.filterMap_append

theorem mem_productions {p : Nat × κ} :
    p ∈ productions log ↔ ∃ complete, .produced p.1 p.2 complete ∈ log := by
  unfold productions
  rw [List.mem_filterMap]
  constructor
  · rintro ⟨e, he, hp⟩
    cases e with
    | produced port c complete =>
      obtain rfl := Option.some.inj hp
      exact ⟨complete, he⟩
    | _ => cases hp
  · rintro ⟨complete, h⟩
    exact ⟨_, h, rfl⟩

theorem mem_producedBy {port : Nat} :
    c ∈ producedBy log port ↔ ∃ complete, .produced port c complete ∈ log := by
  unfold producedBy
  rw [List.mem_map]
  constructor
  · rintro ⟨p, hp, rfl⟩
    obtain ⟨hmem, hport⟩ := List.mem_filter.mp hp
    obtain rfl := of_decide_eq_true hport
    exact mem_productions.mp hmem
  · intro h
    exact ⟨(port, c), List.mem_filter.mpr ⟨mem_productions.mpr h, decide_eq_true rfl⟩, rfl⟩

variable {rest : List (AllocatorEntry κ)}

theorem producedBy_append (h : productions rest = [])
    (port : Nat) : producedBy (log ++ rest) port = producedBy log port := by
  rw [producedBy, producedBy, productions_append, h, List.append_nil]

theorem Distinct.of_append (h : Distinct (log ++ rest)) : Distinct log := by
  unfold Distinct at h
  rw [productions_append, List.map_append] at h
  exact h.of_append_left

theorem Distinct.port_unique (h : Distinct log) {port port' : Nat} {b b' : Bool}
    (hc : .produced port c b ∈ log) (hc' : .produced port' c b' ∈ log) : port = port' := by
  have hinj := List.inj_on_of_nodup_map h
  have heq : (port, c) = (port', c) :=
    hinj (mem_productions.mpr ⟨b, hc⟩) (mem_productions.mpr ⟨b', hc'⟩) rfl
  exact congrArg Prod.fst heq

theorem Distinct.producedBy_nodup (h : Distinct log) (port : Nat) :
    (producedBy log port).Nodup := h.sublist (List.filter_sublist.map Prod.snd)

theorem Open.mono (h : Open protocol log c) : Open protocol (log ++ rest) c := by
  obtain ⟨port, seq, complete, proto, hproduced, hadded, hproto, henabled⟩ := h
  exact ⟨port, seq, complete, proto, List.mem_append_left _ hproduced,
    List.mem_append_left _ hadded, hproto, List.mem_append_left _ henabled⟩

theorem Due.of_announcement
    (hrest : ∀ e ∈ rest, ∃ cs, e = .candidatesReady cs) (h : Due protocol (log ++ rest) c) :
    Due protocol log c := by
  obtain ⟨port, seq, proto, hproduced, hadded, hdestroyed, hproto, henabled⟩ := h
  have hold : ∀ e : AllocatorEntry κ, (∀ cs, e ≠ .candidatesReady cs) → e ∈ log ++ rest →
      e ∈ log := by
    intro e hne he
    rcases List.mem_append.mp he with he | he
    · exact he
    · obtain ⟨cs, rfl⟩ := hrest e he
      exact absurd rfl (hne cs)
  refine ⟨port, seq, proto, hold _ ?_ hproduced, hold _ ?_ hadded,
    fun h => hdestroyed (List.mem_append_left _ h), hproto, hold _ ?_ henabled⟩
  all_goals
    intro cs h
    cases h

theorem eq_of_added {pre post : List (AllocatorEntry κ)} {x : AllocatorEntry κ}
    (h : log ++ [e] ++ announcement cs = pre ++ x :: post) :
    (∃ post', log = pre ++ x :: post' ∧ post = post' ++ ([e] ++ announcement cs)) ∨
      (pre = log ∧ x = e ∧ post = announcement cs) ∨
      (pre = log ++ [e] ∧ x = .candidatesReady cs ∧ post = []) := by
  rw [List.append_assoc] at h
  rcases List.append_eq_append_iff.mp h with ⟨pre', rfl, hrest⟩ | ⟨post', rfl, hrest⟩
  · cases pre' with
    | nil =>
      obtain ⟨rfl, rfl⟩ := List.cons.inj hrest
      exact .inr (.inl ⟨List.append_nil log, rfl, rfl⟩)
    | cons a pre' =>
      obtain ⟨rfl, htail⟩ := List.cons.inj hrest
      have htail : announcement cs = pre' ++ x :: post := htail
      have hx : x = .candidatesReady cs :=
        mem_announcement (htail ▸ List.mem_append_right _ List.mem_cons_self)
      have hlen : (announcement cs).length ≤ 1 := by
        unfold announcement
        split <;> simp
      rw [htail, List.length_append, List.length_cons] at hlen
      have hnil : pre' = [] ∧ post = [] := by
        exact ⟨List.length_eq_zero_iff.mp (by omega), List.length_eq_zero_iff.mp (by omega)⟩
      obtain ⟨rfl, rfl⟩ := hnil
      exact .inr (.inr ⟨rfl, hx, rfl⟩)
  · cases post' with
    | nil =>
      obtain ⟨rfl, rfl⟩ := List.cons.inj hrest
      exact .inr (.inl ⟨(List.append_nil pre).symm, rfl, rfl⟩)
    | cons a post' =>
      obtain ⟨rfl, rfl⟩ := List.cons.inj hrest
      exact .inl ⟨post', rfl, rfl⟩

theorem announcedOnce_nil : AnnouncedOnce protocol [] where
  once := List.nodup_nil
  gated pre cs post h := by simp at h
  passed c h := by
    obtain ⟨_, _, _, h, _⟩ := h
    cases h
  prompt pre e post h := by simp at h

theorem AnnouncedOnce.open_of_announced (h : AnnouncedOnce protocol log) (hc : c ∈ announced log) :
    Open protocol log c := by
  obtain ⟨e, he, hmem⟩ := List.mem_flatMap.mp hc
  cases e with
  | candidatesReady cs =>
    obtain ⟨pre, post, hlog⟩ := List.append_of_mem he
    rw [hlog]
    exact (h.gated pre cs post hlog c hmem).mono
  | _ => cases hmem

/-- **One more entry, with the candidates that have become due.** -/
theorem AnnouncedOnce.add (h : AnnouncedOnce protocol log) (he : passedOn e = [])
    (hcs : cs.Nodup) (hnew : ∀ c ∈ cs, c ∉ announced log)
    (hopen : ∀ c ∈ cs, Open protocol (log ++ [e]) c)
    (hdue : ∀ c, Due protocol (log ++ [e]) c → ¬ Due protocol log c → c ∈ cs) :
    AnnouncedOnce protocol (log ++ [e] ++ announcement cs) := by
  have hannounced : announced (log ++ [e] ++ announcement cs) = announced log ++ cs := by
    have : announced [e] = [] := by rw [announced, List.flatMap_cons, he, List.flatMap_nil]; rfl
    rw [announced_append, announced_append, announced_announcement, this, List.append_nil]
  constructor
  case once =>
    rw [hannounced]
    exact h.once.append hcs fun c hc hc' => hnew c hc' hc
  case gated =>
    intro pre cs' post heq c hc
    rcases eq_of_added heq with ⟨post', hlog, -⟩ | ⟨-, rfl, -⟩ | ⟨rfl, hx, -⟩
    · exact h.gated pre cs' post' hlog c hc
    · rw [show cs' = [] from he] at hc
      cases hc
    · cases hx
      exact hopen c hc
  case passed =>
    intro c hc
    rw [hannounced]
    have hc : Due protocol (log ++ [e]) c :=
      hc.of_announcement fun e he => ⟨cs, mem_announcement he⟩
    by_cases hold : Due protocol log c
    · exact List.mem_append_left _ (h.passed c hold)
    · exact List.mem_append_right _ (hdue c hc hold)
  case prompt =>
    intro pre x post heq c hc hnot
    rcases eq_of_added heq with ⟨post', hlog, rfl⟩ | ⟨rfl, rfl, rfl⟩ | ⟨rfl, rfl, -⟩
    · obtain ⟨cs', post'', rfl, hmem⟩ := h.prompt pre x post' hlog c hc hnot
      exact ⟨cs', _, rfl, hmem⟩
    · have hmem := hdue c hc hnot
      exact ⟨cs, [], announcement_of_ne (List.ne_nil_of_mem hmem), hmem⟩
    · refine absurd (hc.of_announcement ?_) hnot
      intro e he
      exact ⟨cs, List.mem_singleton.mp he⟩

end

/-! ## The ledger -/

/-- A port, with its sequence and all it has produced. -/
structure LedgerPort (κ : Type*) where
  port : Nat
  sequence : Nat
  candidates : List κ

/-- The ports, the protocols of each sequence, and the history. -/
structure Ledger (κ : Type*) where
  ports : List (LedgerPort κ)
  protocols : List (List ProtocolType)
  nextPort : Nat
  log : List (AllocatorEntry κ)

namespace Ledger

/-- The protocols that are enabled for a sequence. -/
def protocolsOf (l : Ledger κ) (seq : Nat) : List ProtocolType := l.protocols[seq]?.getD []

section

variable (protocol : κ → Text)

/-- The protocol of a candidate is enabled for a sequence. -/
def Enabled (l : Ledger κ) (seq : Nat) (c : κ) : Prop :=
  ∃ proto ∈ l.protocolsOf seq, stringToProto (protocol c) = some proto

/-- The candidates of a sequence with a protocol. -/
def scan (l : Ledger κ) (seq : Nat) (proto : ProtocolType) : List κ :=
  (l.ports.filter fun d => d.sequence = seq).flatMap fun d =>
    d.candidates.filter fun c => stringToProto (protocol c) = some proto

/-- One step: an entry, with its announcement. -/
inductive Step : Ledger κ → Ledger κ → Prop
  | portReady (l : Ledger κ) (port : Nat) : Step l { l with log := l.log ++ [.portReady port] }
  | allocationDone (l : Ledger κ) : Step l { l with log := l.log ++ [.allocationDone] }
  | newSequence (l : Ledger κ) : Step l { l with protocols := l.protocols ++ [[]] }
  | addPort (l : Ledger κ) (seq : Nat) : Step l { l with
      ports := l.ports ++ [⟨l.nextPort, seq, []⟩]
      nextPort := l.nextPort + 1
      log := l.log ++ [.portAdded l.nextPort seq] }
  | destroyPort (l : Ledger κ) (port : Nat) (hport : port ∈ l.ports.map LedgerPort.port) : Step l
    { l with
      ports := l.ports.filter fun d => d.port ≠ port
      log := l.log ++ [.portDestroyed port] }
  | produce (l : Ledger κ) (d : LedgerPort κ) (c : κ) (complete : Bool) (cs : List κ)
      (hd : d ∈ l.ports)
      (hpassed : complete = false → l.Enabled protocol d.sequence c → cs = [c])
      (hheld : complete = true ∨ ¬ l.Enabled protocol d.sequence c → cs = []) : Step l { l with
      ports := l.ports.map fun d' =>
        if d'.port = d.port then { d' with candidates := d'.candidates ++ [c] } else d'
      log := l.log ++ [.produced d.port c complete] ++ announcement cs }
  | enable (l : Ledger κ) (seq : Nat) (proto : ProtocolType) (hseq : seq < l.protocols.length)
      (hnew : proto ∉ l.protocolsOf seq) : Step l { l with
      protocols := l.protocols.modify seq fun ps => ps ++ [proto]
      log := l.log ++ [.enabled seq proto] ++ announcement (l.scan protocol seq proto) }

end

/-- **The books are right**: the ports and the protocols are what the history says. -/
structure Books (l : Ledger κ) : Prop where
  nodup : (l.ports.map LedgerPort.port).Nodup
  listed : ∀ port seq, (∃ d ∈ l.ports, d.port = port ∧ d.sequence = seq) ↔
    .portAdded port seq ∈ l.log ∧ .portDestroyed port ∉ l.log
  candidates : ∀ d ∈ l.ports, d.candidates = producedBy l.log d.port
  enabled : ∀ seq proto, proto ∈ l.protocolsOf seq ↔ .enabled seq proto ∈ l.log
  unique : ∀ port seq seq', .portAdded port seq ∈ l.log → .portAdded port seq' ∈ l.log → seq = seq'
  added : ∀ port seq, .portAdded port seq ∈ l.log → port < l.nextPort
  produced : ∀ port c complete, .produced port c complete ∈ l.log →
    ∃ seq, .portAdded port seq ∈ l.log
  destroyed : ∀ port, .portDestroyed port ∈ l.log → port < l.nextPort

/-- The books are right and the candidates have been announced once. -/
structure Sound (protocol : κ → Text) (l : Ledger κ) : Prop where
  books : l.Books
  announced : AnnouncedOnce protocol l.log

variable {protocol : κ → Text} {l l' : Ledger κ} {c : κ} {cs : List κ} {seq : Nat}
  {proto : ProtocolType}

/-! ## The books -/

namespace Books

variable {d : LedgerPort κ}

theorem portAdded (h : l.Books) (hd : d ∈ l.ports) :
    .portAdded d.port d.sequence ∈ l.log := ((h.listed _ _).mp ⟨d, hd, rfl, rfl⟩).1

theorem signal (h : l.Books) {rest : List (AllocatorEntry κ)}
    (hrest : ∀ e ∈ rest, (∃ port, e = .portReady port) ∨ e = .allocationDone ∨
      ∃ cs, e = .candidatesReady cs) : { l with log := l.log ++ rest }.Books := by
  have hold : ∀ e : AllocatorEntry κ, (∀ port, e ≠ .portReady port) → e ≠ .allocationDone →
      (∀ cs, e ≠ .candidatesReady cs) → (e ∈ l.log ++ rest ↔ e ∈ l.log) := by
    intro e h₁ h₂ h₃
    refine ⟨fun he => ?_, List.mem_append_left _⟩
    refine (List.mem_append.mp he).resolve_right fun he => ?_
    rcases hrest e he with ⟨port, rfl⟩ | rfl | ⟨cs, rfl⟩
    · exact h₁ port rfl
    · exact h₂ rfl
    · exact h₃ cs rfl
  have hadded : ∀ port seq, .portAdded port seq ∈ l.log ++ rest ↔ .portAdded port seq ∈ l.log :=
    fun _ _ => hold _ (by simp) (by simp) (by simp)
  have hdestroyed : ∀ port, .portDestroyed port ∈ l.log ++ rest ↔ .portDestroyed port ∈ l.log :=
    fun _ => hold _ (by simp) (by simp) (by simp)
  have hproduced : ∀ port c b, .produced port c b ∈ l.log ++ rest ↔ .produced port c b ∈ l.log :=
    fun _ _ _ => hold _ (by simp) (by simp) (by simp)
  have hproductions : productions rest = [] := by
    rw [productions, List.filterMap_eq_nil_iff]
    intro e he
    rcases hrest e he with ⟨port, rfl⟩ | rfl | ⟨cs, rfl⟩ <;> rfl
  constructor
  case nodup => exact h.nodup
  case listed =>
    intro port seq
    rw [hadded, hdestroyed]
    exact h.listed port seq
  case candidates =>
    intro d hd
    rw [producedBy_append hproductions]
    exact h.candidates d hd
  case enabled =>
    intro seq proto
    exact (h.enabled seq proto).trans (hold _ (by simp) (by simp) (by simp)).symm
  case unique =>
    intro port seq seq' h₁ h₂
    exact h.unique port seq seq' ((hadded _ _).mp h₁) ((hadded _ _).mp h₂)
  case added => exact fun port seq hp => h.added port seq ((hadded _ _).mp hp)
  case produced =>
    intro port c b hp
    obtain ⟨seq, hseq⟩ := h.produced port c b ((hproduced _ _ _).mp hp)
    exact ⟨seq, (hadded _ _).mpr hseq⟩
  case destroyed => exact fun port hp => h.destroyed port ((hdestroyed _).mp hp)

theorem newSequence (h : l.Books) : { l with protocols := l.protocols ++ [[]] }.Books := by
  refine { h with enabled := fun seq proto => ?_ }
  rw [← h.enabled seq proto]
  unfold protocolsOf
  rw [List.getElem?_append]
  split
  · exact Iff.rfl
  · rename_i hge
    rw [List.getElem?_eq_none (not_lt.mp hge), List.getElem?_singleton]
    split <;> exact Iff.rfl

theorem addPort (h : l.Books) (seq : Nat) : Books { l with
    ports := l.ports ++ [⟨l.nextPort, seq, []⟩]
    nextPort := l.nextPort + 1
    log := l.log ++ [.portAdded l.nextPort seq] } := by
  have hlt : ∀ d ∈ l.ports, d.port < l.nextPort := fun d hd => h.added _ _ (h.portAdded hd)
  have hnone : producedBy l.log l.nextPort = [] := by
    rw [List.eq_nil_iff_forall_not_mem]
    intro c hc
    obtain ⟨b, hb⟩ := mem_producedBy.mp hc
    obtain ⟨seq', hseq'⟩ := h.produced _ _ _ hb
    exact lt_irrefl _ (h.added _ _ hseq')
  constructor
  case nodup =>
    rw [List.map_append, List.map_singleton]
    refine h.nodup.append (List.nodup_singleton _) ?_
    intro port hport hnext
    obtain ⟨d, hd, rfl⟩ := List.mem_map.mp hport
    exact (hlt d hd).ne (List.mem_singleton.mp hnext)
  case listed =>
    intro port seq'
    simp only [List.mem_append, List.mem_singleton, AllocatorEntry.portAdded.injEq, reduceCtorEq,
      or_false]
    constructor
    · rintro ⟨d, hd | rfl, rfl, rfl⟩
      · obtain ⟨hadded, hdestroyed⟩ := (h.listed _ _).mp ⟨d, hd, rfl, rfl⟩
        exact ⟨.inl hadded, hdestroyed⟩
      · exact ⟨.inr ⟨rfl, rfl⟩, fun hd => lt_irrefl _ (h.destroyed _ hd)⟩
    · rintro ⟨hadded | ⟨rfl, rfl⟩, hdestroyed⟩
      · obtain ⟨d, hd, hport⟩ := (h.listed _ _).mpr ⟨hadded, hdestroyed⟩
        exact ⟨d, .inl hd, hport⟩
      · exact ⟨_, .inr rfl, rfl, rfl⟩
  case candidates =>
    intro d hd
    rw [producedBy_append (show productions [.portAdded l.nextPort seq] = [] from rfl)]
    rcases List.mem_append.mp hd with hd | hd
    · exact h.candidates d hd
    · rw [List.mem_singleton.mp hd]
      exact hnone.symm
  case enabled =>
    intro seq' proto
    rw [List.mem_append, List.mem_singleton, or_iff_left (by simp)]
    exact h.enabled seq' proto
  case unique =>
    intro port seq₁ seq₂ h₁ h₂
    simp only [List.mem_append, List.mem_singleton, AllocatorEntry.portAdded.injEq] at h₁ h₂
    rcases h₁ with h₁ | ⟨rfl, rfl⟩ <;> rcases h₂ with h₂ | ⟨h₂, rfl⟩
    · exact h.unique port seq₁ seq₂ h₁ h₂
    · exact absurd h₂ (h.added _ _ h₁).ne
    · exact absurd (h.added _ _ h₂) (lt_irrefl _)
    · rfl
  case added =>
    intro port seq' hp
    simp only [List.mem_append, List.mem_singleton, AllocatorEntry.portAdded.injEq] at hp
    rcases hp with hp | ⟨rfl, -⟩
    · exact (h.added port seq' hp).trans (Nat.lt_succ_self _)
    · exact Nat.lt_succ_self _
  case produced =>
    intro port c b hp
    rw [List.mem_append, List.mem_singleton, or_iff_left (by simp)] at hp
    obtain ⟨seq', hseq'⟩ := h.produced port c b hp
    exact ⟨seq', List.mem_append_left _ hseq'⟩
  case destroyed =>
    intro port hp
    rw [List.mem_append, List.mem_singleton, or_iff_left (by simp)] at hp
    exact (h.destroyed port hp).trans (Nat.lt_succ_self _)

theorem destroyPort (h : l.Books) {port : Nat} (hport : port ∈ l.ports.map LedgerPort.port) :
    Books { l with
      ports := l.ports.filter fun d => d.port ≠ port
      log := l.log ++ [.portDestroyed port] } := by
  have hold : ∀ e : AllocatorEntry κ, (∀ port', e ≠ .portDestroyed port') →
      (e ∈ l.log ++ [.portDestroyed port] ↔ e ∈ l.log) := by
    intro e he
    rw [List.mem_append, List.mem_singleton, or_iff_left (he port)]
  constructor
  case nodup => exact h.nodup.sublist (List.filter_sublist.map _)
  case listed =>
    intro port' seq
    rw [hold _ (by simp), List.mem_append, List.mem_singleton, AllocatorEntry.portDestroyed.injEq,
      not_or, ← and_assoc, ← h.listed port' seq]
    constructor
    · rintro ⟨d, hd, rfl, rfl⟩
      obtain ⟨hd, hne⟩ := List.mem_filter.mp hd
      exact ⟨⟨d, hd, rfl, rfl⟩, of_decide_eq_true hne⟩
    · rintro ⟨⟨d, hd, rfl, rfl⟩, hne⟩
      exact ⟨d, List.mem_filter.mpr ⟨hd, decide_eq_true hne⟩, rfl, rfl⟩
  case candidates =>
    intro d hd
    rw [producedBy_append (show productions [.portDestroyed port] = [] from rfl)]
    exact h.candidates d (List.mem_filter.mp hd).1
  case enabled =>
    intro seq proto
    rw [hold _ (by simp)]
    exact h.enabled seq proto
  case unique =>
    intro port' seq seq' h₁ h₂
    exact h.unique port' seq seq' ((hold _ (by simp)).mp h₁) ((hold _ (by simp)).mp h₂)
  case added => exact fun port' seq hp => h.added port' seq ((hold _ (by simp)).mp hp)
  case produced =>
    intro port' c b hp
    obtain ⟨seq, hseq⟩ := h.produced port' c b ((hold _ (by simp)).mp hp)
    exact ⟨seq, List.mem_append_left _ hseq⟩
  case destroyed =>
    intro port' hp
    simp only [List.mem_append, List.mem_singleton, AllocatorEntry.portDestroyed.injEq] at hp
    rcases hp with hp | rfl
    · exact h.destroyed port' hp
    · obtain ⟨d, hd, rfl⟩ := List.mem_map.mp hport
      exact h.added _ _ (h.portAdded hd)

theorem produce (h : l.Books) (hd : d ∈ l.ports) (c : κ) (complete : Bool) : Books { l with
      ports := l.ports.map fun d' =>
        if d'.port = d.port then { d' with candidates := d'.candidates ++ [c] } else d'
      log := l.log ++ [.produced d.port c complete] } := by
  have hold : ∀ e : AllocatorEntry κ, (∀ port c complete, e ≠ .produced port c complete) →
      (e ∈ l.log ++ [.produced d.port c complete] ↔ e ∈ l.log) := by
    intro e he
    rw [List.mem_append, List.mem_singleton, or_iff_left (he _ _ _)]
  have hproduced : ∀ port, producedBy (l.log ++ [.produced d.port c complete]) port =
      producedBy l.log port ++ if port = d.port then [c] else [] := by
    intro port
    rw [producedBy, productions_append, List.filter_append, List.map_append]
    refine congrArg (producedBy l.log port ++ ·) ?_
    change ([(d.port, c)].filter _).map _ = _
    by_cases hport : port = d.port
    · rw [if_pos hport, List.filter_singleton, decide_eq_true hport.symm]
      rfl
    · rw [if_neg hport, List.filter_singleton, decide_eq_false (Ne.symm hport)]
      rfl
  have hsame : ∀ d' : LedgerPort κ,
      (if d'.port = d.port then
        { d' with candidates := d'.candidates ++ [c] } else d').port = d'.port ∧
      (if d'.port = d.port then
        { d' with candidates := d'.candidates ++ [c] } else d').sequence = d'.sequence := by
    intro d'
    split <;> exact ⟨rfl, rfl⟩
  constructor
  case nodup =>
    have hports : LedgerPort.port ∘ _ = LedgerPort.port := funext fun d' => (hsame d').1
    rw [List.map_map, hports]
    exact h.nodup
  case listed =>
    intro port seq
    rw [hold _ (by simp), hold _ (by simp), ← h.listed port seq]
    constructor
    · rintro ⟨d', hd', rfl, rfl⟩
      obtain ⟨d', hmem, rfl⟩ := List.mem_map.mp hd'
      exact ⟨d', hmem, (hsame d').1.symm, (hsame d').2.symm⟩
    · rintro ⟨d', hd', rfl, rfl⟩
      exact ⟨_, List.mem_map_of_mem hd', (hsame d').1, (hsame d').2⟩
  case candidates =>
    intro d' hd'
    obtain ⟨d', hmem, rfl⟩ := List.mem_map.mp hd'
    rw [hproduced, (hsame d').1]
    split
    · exact congrArg (· ++ [c]) (h.candidates d' hmem)
    · rw [List.append_nil]
      exact h.candidates d' hmem
  case enabled =>
    intro seq proto
    rw [hold _ (by simp)]
    exact h.enabled seq proto
  case unique =>
    intro port seq seq' h₁ h₂
    exact h.unique port seq seq' ((hold _ (by simp)).mp h₁) ((hold _ (by simp)).mp h₂)
  case added => exact fun port seq hp => h.added port seq ((hold _ (by simp)).mp hp)
  case produced =>
    intro port c' b hp
    simp only [List.mem_append, List.mem_singleton, AllocatorEntry.produced.injEq] at hp
    rcases hp with hp | ⟨rfl, -⟩
    · obtain ⟨seq, hseq⟩ := h.produced port c' b hp
      exact ⟨seq, List.mem_append_left _ hseq⟩
    · exact ⟨d.sequence, List.mem_append_left _ (h.portAdded hd)⟩
  case destroyed => exact fun port hp => h.destroyed port ((hold _ (by simp)).mp hp)

theorem enable (h : l.Books) (hseq : seq < l.protocols.length) : Books { l with
    protocols := l.protocols.modify seq fun ps => ps ++ [proto]
    log := l.log ++ [.enabled seq proto] } := by
  have hold : ∀ e : AllocatorEntry κ, (∀ seq proto, e ≠ .enabled seq proto) →
      (e ∈ l.log ++ [.enabled seq proto] ↔ e ∈ l.log) := by
    intro e he
    rw [List.mem_append, List.mem_singleton, or_iff_left (he _ _)]
  constructor
  case nodup => exact h.nodup
  case listed =>
    intro port seq'
    rw [hold _ (by simp), hold _ (by simp)]
    exact h.listed port seq'
  case candidates =>
    intro d hd
    rw [producedBy_append (show productions [.enabled seq proto] = [] from rfl)]
    exact h.candidates d hd
  case enabled =>
    intro seq' proto'
    rw [List.mem_append, List.mem_singleton, AllocatorEntry.enabled.injEq, ← h.enabled seq' proto']
    unfold protocolsOf
    rw [List.getElem?_modify]
    by_cases heq : seq = seq'
    · subst heq
      rw [List.getElem?_eq_getElem hseq]
      simp
    · simp [heq, Ne.symm heq]
  case unique =>
    intro port seq₁ seq₂ h₁ h₂
    exact h.unique port seq₁ seq₂ ((hold _ (by simp)).mp h₁) ((hold _ (by simp)).mp h₂)
  case added => exact fun port seq' hp => h.added port seq' ((hold _ (by simp)).mp hp)
  case produced =>
    intro port c b hp
    obtain ⟨seq', hseq'⟩ := h.produced port c b ((hold _ (by simp)).mp hp)
    exact ⟨seq', List.mem_append_left _ hseq'⟩
  case destroyed => exact fun port hp => h.destroyed port ((hold _ (by simp)).mp hp)

end Books

/-! ## The announcements -/

namespace Sound

theorem announced_concat (h : l.Sound protocol) {e : AllocatorEntry κ} (he : passedOn e = [])
    (hdue : ∀ c, Due protocol (l.log ++ [e]) c → Due protocol l.log c) :
    AnnouncedOnce protocol (l.log ++ [e]) := by
  have := h.announced.add he List.nodup_nil (List.forall_mem_nil _) (List.forall_mem_nil _)
    fun c hc hnot => absurd (hdue c hc) hnot
  rwa [announcement_nil, List.append_nil] at this

theorem enabled_iff (h : l.Sound protocol) :
    l.Enabled protocol seq c ↔
      ∃ proto, stringToProto (protocol c) = some proto ∧ .enabled seq proto ∈ l.log := by
  unfold Enabled
  simp only [h.books.enabled, and_comm]

theorem announced_produce (h : l.Sound protocol) {d : LedgerPort κ} (hd : d ∈ l.ports)
    {complete : Bool} (hpassed : complete = false → l.Enabled protocol d.sequence c → cs = [c])
    (hheld : complete = true ∨ ¬ l.Enabled protocol d.sequence c → cs = [])
    (hdistinct : Distinct (l.log ++ [.produced d.port c complete])) :
    AnnouncedOnce protocol (l.log ++ [.produced d.port c complete] ++ announcement cs) := by
  have hadded := h.books.portAdded hd
  have hcs : ∀ x ∈ cs, x = c ∧ l.Enabled protocol d.sequence c := by
    intro x hx
    by_cases hc : complete = true ∨ ¬ l.Enabled protocol d.sequence c
    · rw [hheld hc] at hx
      cases hx
    · rw [not_or, not_not, Bool.not_eq_true] at hc
      rw [hpassed hc.1 hc.2] at hx
      exact ⟨List.mem_singleton.mp hx, hc.2⟩
  have hnodup : cs.Nodup := by
    by_cases hc : complete = true ∨ ¬ l.Enabled protocol d.sequence c
    · rw [hheld hc]
      exact List.nodup_nil
    · rw [not_or, not_not, Bool.not_eq_true] at hc
      rw [hpassed hc.1 hc.2]
      exact List.nodup_singleton c
  -- A candidate that has been announced has been produced before.
  have hnew : c ∉ AllocatorSession.announced l.log := by
    intro hc
    obtain ⟨port, _, b, _, hproduced, -⟩ := h.announced.open_of_announced hc
    rw [Distinct, productions_append, List.map_append] at hdistinct
    exact List.disjoint_of_nodup_append hdistinct
      (List.mem_map_of_mem (f := Prod.snd) (mem_productions (p := (port, c)) |>.mpr ⟨b, hproduced⟩))
      List.mem_cons_self
  refine h.announced.add rfl hnodup ?_ ?_ ?_
  · intro x hx
    rw [(hcs x hx).1]
    exact hnew
  · intro x hx
    obtain ⟨rfl, hopen⟩ := hcs x hx
    obtain ⟨proto, hproto, henabled⟩ := h.enabled_iff.mp hopen
    exact ⟨d.port, d.sequence, complete, proto, by simp, List.mem_append_left _ hadded, hproto,
      List.mem_append_left _ henabled⟩
  · rintro x ⟨port, seq, proto, hproduced, hseq, hdestroyed, hproto, henabled⟩ hnot
    simp only [List.mem_append, List.mem_singleton, AllocatorEntry.produced.injEq, reduceCtorEq,
      or_false] at hproduced hseq hdestroyed henabled
    rcases hproduced with hproduced | ⟨rfl, rfl, hcomplete⟩
    · exact absurd ⟨port, seq, proto, hproduced, hseq, hdestroyed, hproto, henabled⟩ hnot
    · obtain rfl := h.books.unique _ _ _ hadded hseq
      rw [hpassed hcomplete.symm (h.enabled_iff.mpr ⟨proto, hproto, henabled⟩)]
      exact List.mem_singleton_self x

theorem mem_scan : c ∈ l.scan protocol seq proto ↔ ∃ d ∈ l.ports, d.sequence = seq ∧
    c ∈ d.candidates ∧ stringToProto (protocol c) = some proto := by
  unfold scan
  simp only [List.mem_flatMap, List.mem_filter, decide_eq_true_eq, and_assoc]

theorem scan_nodup (h : l.Books) (hdistinct : Distinct l.log) :
    (l.scan protocol seq proto).Nodup := by
  refine List.nodup_flatMap.mpr ⟨fun d hd => ?_, ?_⟩
  · rw [h.candidates d (List.mem_filter.mp hd).1]
    exact (hdistinct.producedBy_nodup d.port).filter _
  · have hports : l.ports.Pairwise fun d d' => d.port ≠ d'.port := List.pairwise_map.mp h.nodup
    refine (hports.sublist List.filter_sublist).imp_of_mem fun {d d'} hd hd' hne => ?_
    intro c hc hc'
    have hmem := (List.mem_filter.mp hc).1
    have hmem' := (List.mem_filter.mp hc').1
    rw [h.candidates _ (List.mem_filter.mp hd).1] at hmem
    rw [h.candidates _ (List.mem_filter.mp hd').1] at hmem'
    obtain ⟨b, hb⟩ := mem_producedBy.mp hmem
    obtain ⟨b', hb'⟩ := mem_producedBy.mp hmem'
    exact hne (hdistinct.port_unique hb hb')

theorem announced_enable (h : l.Sound protocol) (hnew : proto ∉ l.protocolsOf seq)
    (hdistinct : Distinct l.log) : AnnouncedOnce protocol
      (l.log ++ [.enabled seq proto] ++ announcement (l.scan protocol seq proto)) := by
  rw [h.books.enabled] at hnew
  refine h.announced.add rfl (scan_nodup h.books hdistinct) ?_ ?_ ?_
  · -- What has been announced was open, and that was with another protocol or sequence.
    intro c hc hannounced
    obtain ⟨d, hd, rfl, hmem, hproto⟩ := mem_scan.mp hc
    rw [h.books.candidates d hd] at hmem
    obtain ⟨b, hb⟩ := mem_producedBy.mp hmem
    obtain ⟨port, seq', b', proto', hproduced, hadded, hproto', henabled⟩ :=
      h.announced.open_of_announced hannounced
    obtain rfl := hdistinct.port_unique hb hproduced
    obtain rfl := h.books.unique _ _ _ (h.books.portAdded hd) hadded
    obtain rfl := Option.some.inj (hproto.symm.trans hproto')
    exact hnew henabled
  · intro c hc
    obtain ⟨d, hd, rfl, hmem, hproto⟩ := mem_scan.mp hc
    rw [h.books.candidates d hd] at hmem
    obtain ⟨b, hb⟩ := mem_producedBy.mp hmem
    exact ⟨d.port, d.sequence, b, proto, List.mem_append_left _ hb,
      List.mem_append_left _ (h.books.portAdded hd), hproto, by simp⟩
  · rintro c ⟨port, seq', proto', hproduced, hadded, hdestroyed, hproto, henabled⟩ hnot
    simp only [List.mem_append, List.mem_singleton, AllocatorEntry.enabled.injEq, reduceCtorEq,
      or_false] at hproduced hadded hdestroyed henabled
    rcases henabled with henabled | ⟨rfl, rfl⟩
    · exact absurd ⟨port, seq', proto', hproduced, hadded, hdestroyed, hproto, henabled⟩ hnot
    · obtain ⟨d, hd, rfl, rfl⟩ := (h.books.listed _ _).mpr ⟨hadded, hdestroyed⟩
      refine mem_scan.mpr ⟨d, hd, rfl, ?_, hproto⟩
      rw [h.books.candidates d hd]
      exact mem_producedBy.mpr ⟨false, hproduced⟩

/-! ## Every step -/

theorem new : Sound protocol (⟨[], [], 0, []⟩ : Ledger κ) where
  books :=
    { nodup := List.nodup_nil
      listed := by simp
      candidates := List.forall_mem_nil _
      enabled := by simp [protocolsOf]
      unique := by simp
      added := by simp
      produced := by simp
      destroyed := by simp }
  announced := announcedOnce_nil

end Sound

theorem Step.log_append (h : Step protocol l l') : ∃ rest, l'.log = l.log ++ rest := by
  cases h with
  | newSequence => exact ⟨[], (List.append_nil _).symm⟩
  | produce => exact ⟨_, List.append_assoc _ _ _⟩
  | enable => exact ⟨_, List.append_assoc _ _ _⟩
  | _ => exact ⟨_, rfl⟩

/-- **Every step keeps the books and the announcements**, while the candidates are distinct. -/
theorem Sound.step (h : l.Sound protocol) (hstep : Step protocol l l')
    (hdistinct : Distinct l'.log) : l'.Sound protocol := by
  cases hstep with
  | portReady port =>
    refine ⟨h.books.signal fun e he => .inl ⟨port, List.mem_singleton.mp he⟩,
      h.announced_concat rfl ?_⟩
    rintro c ⟨port, seq, proto, hdue⟩
    exact ⟨port, seq, proto, by simpa using hdue⟩
  | allocationDone =>
    refine ⟨h.books.signal fun e he => .inr (.inl (List.mem_singleton.mp he)),
      h.announced_concat rfl ?_⟩
    rintro c ⟨port, seq, proto, hdue⟩
    exact ⟨port, seq, proto, by simpa using hdue⟩
  | newSequence => exact ⟨h.books.newSequence, h.announced⟩
  | addPort seq =>
    refine ⟨h.books.addPort seq, h.announced_concat rfl ?_⟩
    rintro c ⟨port, seq', proto, hproduced, hadded, hdestroyed, hproto, henabled⟩
    simp only [List.mem_append, List.mem_singleton, AllocatorEntry.portAdded.injEq, reduceCtorEq,
      or_false] at hproduced hadded hdestroyed henabled
    rcases hadded with hadded | ⟨rfl, -⟩
    · exact ⟨port, seq', proto, hproduced, hadded, hdestroyed, hproto, henabled⟩
    · -- A new port has produced nothing.
      obtain ⟨_, hadded⟩ := h.books.produced _ _ _ hproduced
      exact absurd (h.books.added _ _ hadded) (lt_irrefl _)
  | destroyPort port hport =>
    refine ⟨h.books.destroyPort hport, h.announced_concat rfl ?_⟩
    rintro c ⟨port', seq, proto, hproduced, hadded, hdestroyed, hproto, henabled⟩
    simp only [List.mem_append, List.mem_singleton, AllocatorEntry.portDestroyed.injEq,
      reduceCtorEq, or_false, not_or] at hproduced hadded hdestroyed henabled
    exact ⟨port', seq, proto, hproduced, hadded, hdestroyed.1, hproto, henabled⟩
  | produce d c complete cs hd hpassed hheld =>
    exact ⟨(h.books.produce hd c complete).signal fun e he => .inr (.inr ⟨cs, mem_announcement he⟩),
      h.announced_produce hd hpassed hheld hdistinct.of_append⟩
  | enable seq proto hseq hnew =>
    exact ⟨(h.books.enable hseq).signal fun e he => .inr (.inr ⟨_, mem_announcement he⟩),
      h.announced_enable hnew hdistinct.of_append.of_append⟩

/-- **A run keeps them.** -/
theorem Sound.steps (h : l.Sound protocol) (hsteps : Relation.ReflTransGen (Step protocol) l l')
    (hdistinct : Distinct l'.log) : l'.Sound protocol := by
  induction hsteps with
  | refl => exact h
  | tail _ hstep ih =>
    obtain ⟨rest, hrest⟩ := hstep.log_append
    exact (ih (hrest ▸ hdistinct).of_append).step hstep hdistinct

end Ledger

end Libjingle.AllocatorSession
