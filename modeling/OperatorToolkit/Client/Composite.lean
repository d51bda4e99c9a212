import OperatorToolkit.Interaction.Sum
import OperatorToolkit.Object.Names

/-!
# The composite client

A composite client has a client that reads from a cache and one that reads from the API server.
`Get` asks the server only for what the cache does not have, and `List` asks one of them according
to the options. The cache follows the server: what it holds is what the server held some writes ago.

A reader may therefore see an old object, but not one older than what the cache held when the call
began. That an object is missing is never old news: the server did not have it at some moment of the
call.
-/

namespace OperatorToolkit.Client

open Object Interaction

variable {Content Err : Type}

/-! ## The server and its cache -/

/-- The writes on the server in their order, each with what it leaves under its name, and how many
of them the cache has seen. -/
structure Server (Content : Type) where
  writes : List (NamespacedName × Option Content)
  seen : Nat
  seen_le : seen ≤ writes.length

/-- What there is after some writes. -/
def contentAfter : List (NamespacedName × Option Content) → NamespacedName → Option Content
  | [], _ => none
  | (written, content) :: earlier, name =>
    if written = name then content else contentAfter earlier name

/-- What the server had under the name after its first `n` writes. -/
def Server.contentAt (server : Server Content) (n : Nat) : NamespacedName → Option Content :=
  contentAfter (server.writes.take n).reverse

/-- What the server has under the name, and what the cache holds. -/
def Server.now (server : Server Content) : NamespacedName → Option Content :=
  server.contentAt server.writes.length

def Server.cached (server : Server Content) : NamespacedName → Option Content :=
  server.contentAt server.seen

def Server.write (server : Server Content) (name : NamespacedName) (content : Option Content) :
    Server Content where
  writes := server.writes ++ [(name, content)]
  seen := server.seen
  seen_le := by
    rw [List.length_append]
    exact Nat.le_trans server.seen_le (Nat.le_add_right _ _)

/-- The cache is told of writes, up to the given one. -/
def Server.deliver (server : Server Content) (n : Nat) (hn : n ≤ server.writes.length) :
    Server Content :=
  ⟨server.writes, n, hn⟩

/-- The items are the objects of the given contents that the options ask for. -/
structure Lists (contents : NamespacedName → Option Content) (opts : NamedObject Content → Bool)
    (items : List (NamedObject Content)) : Prop where
  nodup : items.Nodup
  mem_iff : ∀ obj, obj ∈ items ↔ contents obj.namespacedName = some obj.content ∧ opts obj = true

/-! ## The client -/

/-- The two clients that a client is composed of. -/
inductive Source where
  | cached
  | uncached
  deriving DecidableEq, Repr

/-- The calls of both clients, and what others do: writes on the server, and what the cache is told
of them. -/
inductive ClientRequest (Content : Type) where
  | get (source : Source) (key : NamespacedName)
  | list (source : Source) (opts : NamedObject Content → Bool)
  | write (name : NamespacedName) (content : Option Content)
  | deliver

def clientCalls (Content Err : Type) : Signature where
  Request := ClientRequest Content
  Reply
    | .get _ _ => Except Err Content
    | .list _ _ => Except Err (List (NamedObject Content))
    | .write _ _ => Option Err
    | .deliver => Unit

structure Options where
  rawListing : Bool

section Calls

-- `IsNotFound` of the API machinery.
variable (isNotFound : Err → Bool)

/-- `Client.Get`. It returns what has been written into the object. -/
def get (key : NamespacedName) : Program (clientCalls Content Err) (Except Err Content) :=
  .call (S := clientCalls Content Err) (.get .cached key) fun
    | .ok content => .done (.ok content)
    | .error cErr =>
      if isNotFound cErr then .call (S := clientCalls Content Err) (.get .uncached key) .done
      else .done (.error cErr)

/-- `Client.List`. -/
def list (options : Options) (opts : NamedObject Content → Bool) :
    Program (clientCalls Content Err) (Except Err (List (NamedObject Content))) :=
  if options.rawListing then .call (S := clientCalls Content Err) (.list .uncached opts) .done
  else .call (S := clientCalls Content Err) (.list .cached opts) .done

/-- What the source holds. -/
def Server.contents (server : Server Content) : Source → NamespacedName → Option Content
  | .cached => server.cached
  | .uncached => server.now

/-- A call may fail with any error, but a read reports that an object is missing only if it is. -/
def clientService : Service (clientCalls Content Err) (Server Content) where
  Handles server request reply server' := match request, reply with
    | .get source key, .ok content => server.contents source key = some content ∧ server' = server
    | .get source key, .error err =>
      (isNotFound err = true → server.contents source key = none) ∧ server' = server
    | .list source opts, .ok items => Lists (server.contents source) opts items ∧ server' = server
    | .list _ _, .error _ => server' = server
    | .write name content, err =>
      (err = none ∧ server' = server.write name content) ∨ (err.isSome ∧ server' = server)
    | .deliver, _ =>
      ∃ n hn, server.seen ≤ n ∧ server' = server.deliver n hn
  Breaks _ _ _ := False
  Rely server server' := server' = server

inductive ClientCall (Content : Type) where
  | get (key : NamespacedName)
  | list (options : Options) (opts : NamedObject Content → Bool)

inductive ClientOutcome (Content Err : Type) where
  | got (result : Except Err Content)
  | listed (result : Except Err (List (NamedObject Content)))
  | other

def ClientCall.program : ClientCall Content →
    Program (clientCalls Content Err) (ClientOutcome Content Err)
  | .get key => (Client.get isNotFound key).map .got
  | .list options opts => (Client.list options opts).map .listed

end Calls

/-! ## Moments -/

/-- The server goes on writing and the cache goes on following it. -/
structure Server.Grows (server server' : Server Content) : Prop where
  writes : server.writes <+: server'.writes
  seen : server.seen ≤ server'.seen

/-- How many writes are in what the source holds. -/
def Server.position (server : Server Content) : Source → Nat
  | .cached => server.seen
  | .uncached => server.writes.length

variable {server server' start : Server Content}

theorem Server.contents_eq (server : Server Content) (source : Source) :
    server.contents source = server.contentAt (server.position source) := by
  cases source <;> rfl

theorem Server.position_le (server : Server Content) (source : Source) :
    server.position source ≤ server.writes.length := by
  cases source with
  | cached => exact server.seen_le
  | uncached => exact Nat.le_refl _

theorem Server.Grows.refl (server : Server Content) : server.Grows server :=
  ⟨List.prefix_rfl, Nat.le_refl _⟩

theorem Server.Grows.trans (h : start.Grows server) (h' : server.Grows server') :
    start.Grows server' :=
  ⟨h.writes.trans h'.writes, Nat.le_trans h.seen h'.seen⟩

theorem Server.Grows.position_le (h : server.Grows server') (source : Source) :
    server.position source ≤ server'.position source := by
  cases source with
  | cached => exact h.seen
  | uncached => exact h.writes.length_le

/-- What has been written stays in the past. -/
theorem Server.Grows.contentAt_eq (h : server.Grows server') {n : Nat}
    (hn : n ≤ server.writes.length) : server'.contentAt n = server.contentAt n := by
  obtain ⟨later, hlater⟩ := h.writes
  rw [contentAt, contentAt, ← hlater, List.take_append_of_le_length hn]

theorem grows_of_handles {isNotFound : Err → Bool} {request : ClientRequest Content}
    {reply : (clientCalls Content Err).Reply request}
    (h : (clientService isNotFound).Handles server request reply server') :
    server.Grows server' := by
  have hsame (heq : server' = server) : server.Grows server' := heq ▸ .refl server
  cases request with
  | get source key =>
    cases reply with
    | ok content => exact hsame h.2
    | error err => exact hsame h.2
  | list source opts =>
    cases reply with
    | ok items => exact hsame h.2
    | error err => exact hsame h
  | write name content =>
    rcases h with ⟨-, rfl⟩ | ⟨-, heq⟩
    · exact ⟨List.prefix_append _ _, Nat.le_refl _⟩
    · exact hsame heq
  | deliver =>
    obtain ⟨n, hn, hseen, rfl⟩ := h
    exact ⟨List.prefix_rfl, hseen⟩

/-- At some moment since the start the source held contents with the property. -/
def HeldSince (start : Server Content) (source : Source)
    (φ : (NamespacedName → Option Content) → Prop) (server : Server Content) : Prop :=
  ∃ n, start.position source ≤ n ∧ n ≤ server.position source ∧ φ (server.contentAt n)

theorem HeldSince.grows {source : Source} {φ : (NamespacedName → Option Content) → Prop}
    (h : HeldSince start source φ server) (hgrows : server.Grows server') :
    HeldSince start source φ server' := by
  obtain ⟨n, hstart, hn, hφ⟩ := h
  refine ⟨n, hstart, Nat.le_trans hn (hgrows.position_le source), ?_⟩
  rw [hgrows.contentAt_eq (Nat.le_trans hn (server.position_le source))]
  exact hφ

/-- A moment is found by reading. -/
theorem heldSince_of_contents {source : Source} {φ : (NamespacedName → Option Content) → Prop}
    (hgrows : start.Grows server) (h : φ (server.contents source)) :
    HeldSince start source φ server := by
  rw [server.contents_eq] at h
  exact ⟨_, hgrows.position_le source, Nat.le_refl _, h⟩

/-! ## The calls -/

section Reads

variable (isNotFound : Err → Bool) (start : Server Content)

/-- What the outcome of a call says about the moments since it began. -/
def ClientCall.Sound : ClientCall Content → ClientOutcome Content Err → Server Content → Prop
  | .get key, .got (.ok content), server =>
    HeldSince start .cached (· key = some content) server ∨
      (HeldSince start .uncached (· key = some content) server ∧
        HeldSince start .cached (· key = none) server)
  | .get key, .got (.error err), server =>
    isNotFound err = true → HeldSince start .uncached (· key = none) server
  | .list options opts, .listed (.ok items), server =>
    HeldSince start (if options.rawListing then .uncached else .cached) (Lists · opts items) server
  | .list _ _, .listed (.error _), _ => True
  | _, _, _ => False

/-- A call relies on the server and the cache to go on. -/
def readRole (call : ClientCall Content) :
    Role (clientCalls Content Err) (ClientOutcome Content Err) (Server Content) where
  rely := Server.Grows
  guard _ _ := True
  post := call.Sound isNotFound start

/-- The service for one call among others. -/
abbrev growingService : Service (clientCalls Content Err) (Server Content) :=
  { clientService isNotFound with Rely := Server.Grows }

variable {isNotFound start} {Q : ClientOutcome Content Err → Server Content → Prop}

/-- One read from a source, and what is found then. -/
theorem safe_read {request : ClientRequest Content} {P : Server Content → Prop}
    {next : (clientCalls Content Err).Reply request →
      Program (clientCalls Content Err) (ClientOutcome Content Err)}
    (post : (clientCalls Content Err).Reply request → Server Content → Prop)
    (hP : ∀ server server', P server → server.Grows server' → P server')
    (hpost : ∀ server reply server', P server →
      (clientService isNotFound).Handles server request reply server' → post reply server')
    (hnext : ∀ reply, Safe (growingService isNotFound) (fun _ ↦ True) (fun _ _ ↦ True)
      (post reply) (next reply) Q) :
    Safe (growingService isNotFound) (fun _ ↦ True) (fun _ _ ↦ True) P (.call request next) Q :=
  .call post hP (fun _ _ ↦ ⟨trivial, trivial⟩) (fun _ _ _ hbreak ↦ hbreak.elim) hpost hnext

theorem safe_returned {outcome : ClientOutcome Content Err} {P : Server Content → Prop}
    (hP : ∀ server server', P server → server.Grows server' → P server')
    (hQ : ∀ server, P server → Q outcome server) :
    Safe (growingService isNotFound) (fun _ ↦ True) (fun _ _ ↦ True) P
      (.done outcome : Program (clientCalls Content Err) _) Q :=
  .done hP fun server hserver ↦ ⟨trivial, hQ server hserver⟩

/-- What one source says about the key, since the start. -/
def Told (isNotFound : Err → Bool) (start : Server Content) (source : Source) (key : NamespacedName)
    (reply : Except Err Content) (server : Server Content) : Prop :=
  match reply with
  | .ok content => HeldSince start source (· key = some content) server
  | .error err => isNotFound err = true → HeldSince start source (· key = none) server

theorem Told.grows {source : Source} {key : NamespacedName} {reply : Except Err Content}
    (h : Told isNotFound start source key reply server) (hgrows : server.Grows server') :
    Told isNotFound start source key reply server' := by
  cases reply with
  | ok content =>
    have hheld : HeldSince start source (· key = some content) server := h
    exact hheld.grows hgrows
  | error err => exact fun hnotFound ↦ (h hnotFound).grows hgrows

theorem told_of_handles {source : Source} {key : NamespacedName} {reply : Except Err Content}
    (hgrows : start.Grows server)
    (h : (clientService isNotFound).Handles server (.get source key) reply server') :
    start.Grows server' ∧ Told isNotFound start source key reply server' := by
  refine ⟨hgrows.trans (grows_of_handles h), ?_⟩
  cases reply with
  | ok content =>
    obtain ⟨hcontent, rfl⟩ := h
    exact heldSince_of_contents (φ := (· key = some content)) hgrows hcontent
  | error err =>
    obtain ⟨hmissing, rfl⟩ := h
    exact fun hnotFound ↦
      heldSince_of_contents (φ := (· key = none)) hgrows (hmissing hnotFound)

theorem safe_get (key : NamespacedName) :
    Safe (growingService isNotFound) (fun _ ↦ True) (fun _ _ ↦ True) start.Grows
      (ClientCall.program isNotFound (.get key))
      (ClientCall.Sound isNotFound start (.get key)) := by
  refine safe_read (fun reply server ↦ start.Grows server ∧
    Told isNotFound start .cached key reply server) (fun _ _ ↦ .trans)
    (fun _ _ _ ↦ told_of_handles) fun (reply : Except Err Content) ↦ ?_
  cases reply with
  | ok content =>
    exact safe_returned (fun _ _ h hgrows ↦ ⟨h.1.trans hgrows, h.2.grows hgrows⟩)
      fun _ h ↦ .inl h.2
  | error cErr =>
    change Safe _ _ _ _ (Program.map ClientOutcome.got (if isNotFound cErr then _ else _)) _
    split
    next hnotFound =>
      -- The miss in the cache is remembered while the server is asked.
      refine safe_read (fun reply server ↦ (start.Grows server ∧
        Told isNotFound start .uncached key reply server) ∧
        HeldSince start .cached (· key = none) server) (fun _ _ h hgrows ↦ ?_) ?_
        fun (reply : Except Err Content) ↦ ?_
      · exact ⟨h.1.trans hgrows, h.2.grows hgrows⟩
      · intro server reply server' h hhandles
        exact ⟨told_of_handles h.1 hhandles, (h.2 hnotFound).grows (grows_of_handles hhandles)⟩
      · refine safe_returned (fun _ _ h hgrows ↦ ?_) fun server h ↦ ?_
        · exact ⟨⟨h.1.1.trans hgrows, h.1.2.grows hgrows⟩, h.2.grows hgrows⟩
        · cases reply with
          | ok content => exact .inr ⟨h.1.2, h.2⟩
          | error err => exact h.1.2
    next hother =>
      exact safe_returned (fun _ _ h hgrows ↦ ⟨h.1.trans hgrows, h.2.grows hgrows⟩)
        fun _ _ hnotFound ↦ absurd hnotFound hother

theorem safe_list (options : Options) (opts : NamedObject Content → Bool) :
    Safe (growingService isNotFound) (fun _ ↦ True) (fun _ _ ↦ True) start.Grows
      (ClientCall.program isNotFound (.list options opts))
      (ClientCall.Sound isNotFound start (.list options opts)) := by
  have hsource (source : Source) (hsource : (if options.rawListing then .uncached else .cached) =
      source) : Safe (growingService isNotFound) (fun _ ↦ True) (fun _ _ ↦ True) start.Grows
      (.call (.list source opts) fun result ↦ .done (.listed result) :
        Program (clientCalls Content Err) _)
      (ClientCall.Sound isNotFound start (.list options opts)) := by
    subst hsource
    refine safe_read (fun reply server ↦
      ClientCall.Sound isNotFound start (.list options opts) (.listed reply) server)
      (fun _ _ ↦ .trans) ?_ fun (reply : Except Err (List (NamedObject Content))) ↦ ?_
    · intro server (reply : Except Err (List (NamedObject Content))) server' hgrows hhandles
      cases reply with
      | ok items =>
        obtain ⟨hitems, rfl⟩ := hhandles
        exact heldSince_of_contents (φ := (Lists · opts items)) hgrows hitems
      | error err => trivial
    · refine safe_returned (fun server server' h hgrows ↦ ?_) fun _ h ↦ h
      cases reply with
      | ok items =>
        have hheld : HeldSince start _ (Lists · opts items) server := h
        exact hheld.grows hgrows
      | error err => trivial
  change Safe _ _ _ _ (Program.map ClientOutcome.listed (list options opts)) _
  unfold list
  cases hraw : options.rawListing with
  | true => exact hsource .uncached (by rw [hraw]; rfl)
  | false => exact hsource .cached (by rw [hraw]; rfl)

/-- **Moments of reads.** Whatever the other members do, at whatever moments: an object that `Get`
returns was in the cache at some moment of the call, or it was on the server at some moment of the
call and not in the cache at another one. If `Get` returns that there is no object, the server had
none at some moment of the call. What `List` returns was what the cache held, or for a raw listing
what the server held, at some moment of the call. -/
theorem composite_reads (isNotFound : Err → Bool) (call : ClientCall Content)
    (before after : List (Program (clientCalls Content Err) (ClientOutcome Content Err)))
    (start : Server Content)
    (pool : Pool (clientCalls Content Err) (ClientOutcome Content Err) (Server Content))
    (h : PoolReaches (clientService isNotFound)
      ⟨before ++ call.program isNotFound :: after, start⟩ pool)
    (outcome : ClientOutcome Content Err)
    (hdone : pool.members[before.length]? = some (.done outcome)) :
    call.Sound isNotFound start outcome pool.state := by
  have hsafe : Safe (growingService isNotFound) (fun _ ↦ True) (fun _ _ ↦ True) start.Grows
      (call.program isNotFound) (call.Sound isNotFound start) := by
    cases call with
    | get key => exact safe_get key
    | list options opts => exact safe_list options opts
  have hstart : ∀ program, (before ++ call.program isNotFound :: after)[before.length]? =
      some program → (readRole isNotFound start call).Follows (clientService isNotFound)
        (fun _ ↦ True) start program := by
    intro program hprogram
    rw [List.getElem?_append_right (Nat.le_refl _), Nat.sub_self] at hprogram
    rw [← Option.some.inj hprogram]
    exact ⟨start.Grows, hsafe, .refl start⟩
  have hfollows := h.among (fun _ _ _ _ ↦ grows_of_handles) hstart _ hdone
  exact hfollows.returned

end Reads

def chess : NamespacedName := ⟨"default", "chess"⟩

/-- A server on which a game was created, which the cache has not seen. -/
def createdChess : Server String := ⟨[(chess, some "board")], 0, Nat.zero_le _⟩

def isMissing (err : GoError) : Bool := err == ⟨["not found"]⟩

/-- The cache is told of the game only after it was asked for it. -/
theorem composite_reads_created :
    ∃ pool, PoolReaches (clientService isMissing)
        ⟨[.call .deliver fun _ ↦ .done .other] ++ ClientCall.program isMissing (.get chess) :: [],
          createdChess⟩ pool ∧
      pool.members[1]? = some (.done (.got (.ok "board"))) ∧ pool.state.seen = 1 ∧
      ClientCall.Sound isMissing createdChess (.get chess) (.got (.ok "board")) pool.state := by
  have hmiss : (clientService isMissing).Handles createdChess (.get .cached chess)
      (.error ⟨["not found"]⟩) createdChess := ⟨fun _ ↦ rfl, rfl⟩
  have hdeliver : (clientService isMissing).Handles createdChess .deliver ()
      (createdChess.deliver 1 (Nat.le_refl _)) := ⟨1, Nat.le_refl _, Nat.zero_le _, rfl⟩
  have hfind : (clientService isMissing).Handles (createdChess.deliver 1 (Nat.le_refl _))
      (.get .uncached chess) (.ok "board") (createdChess.deliver 1 (Nat.le_refl _)) := ⟨rfl, rfl⟩
  have hreaches : PoolReaches (clientService isMissing)
      ⟨[.call .deliver fun _ ↦ .done .other] ++ ClientCall.program isMissing (.get chess) :: [],
        createdChess⟩
      ⟨[.done .other, .done (.got (.ok "board"))], createdChess.deliver 1 (Nat.le_refl _)⟩ := by
    refine .head (@PoolStep.call (clientCalls _ _) _ _ _ [_] [] _ _ _ _ _ hmiss) ?_
    refine .head (@PoolStep.call (clientCalls _ _) _ _ _ [] [_] _ _ _ _ _ hdeliver) ?_
    exact .single (@PoolStep.call (clientCalls _ _) _ _ _ [_] [] _ _ _ _ _ hfind)
  exact ⟨_, hreaches, rfl, rfl, composite_reads isMissing _ _ _ _ _ hreaches _ rfl⟩

end OperatorToolkit.Client
