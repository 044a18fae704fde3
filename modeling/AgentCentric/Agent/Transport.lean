import AgentCentric.Library.Names
import Mathlib.Data.List.Infix

namespace AgentCentric.Transport

/-- What Python takes for a digit, in `\d` and in `isdigit`. -/
structure Digits where
  decimal : Char → Bool
  digit : Char → Bool

def securityDefault : String := "loopback"

/-- In the order of `sorted`. -/
def securityProfiles : List String := ["local","loopback","tls"]

def loopbackHosts : List String := ["127.0.0.1","127.0.0.0","::1","localhost","127.0.0.0.1"]

variable (U : Digits)

def isdigit (part : List Char) : Bool := !part.isEmpty && part.all U.digit

def isLoopbackHost (host : List Char) : Bool :=
  if host ∈ loopbackHosts.map String.toList then true
  else if "127.".toList.isPrefixOf host then
    let parts := host.splitOn '.'
    parts.length = 4 && parts.all (isdigit U)
  else false

/-- `\d+$`, which also ends before a line break at the end. -/
def isPort (port : List Char) : Bool :=
  let digits := if port.getLast? = some '\n' then port.dropLast else port
  !digits.isEmpty && digits.all U.decimal

/-- The host that `_TCP_RE` finds. -/
def tcpHost (endpoint : List Char) : Option (List Char) :=
  let host := endpoint.takeWhile (· ≠ ':')
  match endpoint.dropWhile (· ≠ ':') with
  | _ :: port => if host ≠ [] ∧ isPort U port = true then some host else none
  | [] => none

def isLoopbackTcpEndpoint (endpoint : List Char) : Bool :=
  match tcpHost U endpoint with
  | none => false
  | some host => isLoopbackHost U host

/-- `check_tcp_bind`: why an endpoint may not be bound, if it may not. -/
def checkTcpBind (endpoint : List Char) (security : String) : Option String :=
  if security ∉ securityProfiles then
    some ("unknown security profile " ++ pyRepr security ++ " (expected one of " ++
      String.intercalate ", " securityProfiles ++ ")")
  else if isLoopbackTcpEndpoint U endpoint then none
  else if security = securityDefault then
    some ("refusing non-loopback tcp bind " ++ pyRepr (String.ofList endpoint) ++
      ": the CBP transport is trusted only on loopback; pass security='local' (or 'tls') to opt " ++
      "in explicitly")
  else none

/-- What the two bind sites check: the `tcp` endpoints alone. -/
def refusal (endpoint : List Char) (security : String) : Option String :=
  if "tcp://".toList.isPrefixOf endpoint then checkTcpBind U (endpoint.drop 6) security else none

def octetValue (cs : List Char) : Nat := cs.foldl (fun n c => 10 * n + (c.toNat - '0'.toNat)) 0

def Octet (cs : List Char) : Prop :=
  cs ≠ [] ∧ (∀ c ∈ cs, c.isDigit = true) ∧ octetValue cs ≤ 255

/-- Four octets, in `127.0.0.0/8`. -/
def Quad (host : List Char) : Prop :=
  ∃ b c d, host.splitOn '.' = ["127".toList,b,c,d] ∧ Octet b ∧ Octet c ∧ Octet d

/-- `localhost`, `::1` (also in the brackets that an endpoint has around it), or a literal. -/
def LoopbackHost (host : List Char) : Prop :=
  host = "localhost".toList ∨ host = "::1".toList ∨ host = "[::1]".toList ∨ Quad host

/-- An `inproc` or `ipc` endpoint, or a `tcp` endpoint with a loopback host. -/
def Allowed (endpoint : List Char) : Prop :=
  "inproc://".toList <+: endpoint ∨ "ipc://".toList <+: endpoint ∨
    ∃ host port, endpoint = "tcp://".toList ++ host ++ ':' :: port ∧ LoopbackHost host

/-- A host that the code takes for a loopback host and that is none. -/
def OddHost (host : List Char) : Prop :=
  host = "127.0.0.0.1".toList ∨
    ∃ b c d, host.splitOn '.' = ["127".toList,b,c,d] ∧
      (∀ part ∈ ["127".toList,b,c,d], isdigit U part = true) ∧ ¬(Octet b ∧ Octet c ∧ Octet d)

/-- The scheme is one that is known, and the host of a `tcp` endpoint is not odd. -/
def Clean (endpoint : List Char) : Prop :=
  "inproc://".toList <+: endpoint ∨ "ipc://".toList <+: endpoint ∨
    ∃ rest, endpoint = "tcp://".toList ++ rest ∧
      ∀ host, tcpHost U rest = some host → ¬OddHost U host

variable {U}

theorem colon_notMem_octet {cs : List Char} (h : Octet cs) : ':' ∉ cs :=
  fun hmem => absurd (h.2.1 ':' hmem) (by decide)

theorem colon_notMem_quad {host : List Char} (h : Quad host) : ':' ∉ host := by
  obtain ⟨b,c,d,hsplit,hb,hc,hd⟩ := h
  have hhost : List.intercalate ['.'] (host.splitOn '.') = host := List.intercalate_splitOn '.'
  rw [hsplit] at hhost
  rw [← hhost]
  simp [List.intercalate,colon_notMem_octet hb,colon_notMem_octet hc,colon_notMem_octet hd]

theorem octet_zero : Octet ['0'] := ⟨by simp,by simp,by decide⟩

theorem octet_one : Octet ['1'] := ⟨by simp,by simp,by decide⟩

theorem four_parts {host b c d : List Char} (h : host.splitOn '.' = ["127".toList,b,c,d]) :
    (host.splitOn '.').length = 4 := by
  rw [h]
  rfl

theorem loopback_iff {host : List Char} (h : isLoopbackHost U host = true) :
    LoopbackHost host ↔ ¬OddHost U host := by
  constructor
  · rintro hloopback (rfl | ⟨b,c,d,hsplit,-,hoctets⟩)
    · rcases hloopback with h | h | h | ⟨b,c,d,hsplit,-⟩
      · exact absurd h (by decide)
      · exact absurd h (by decide)
      · exact absurd h (by decide)
      · exact absurd (four_parts hsplit) (by decide)
    · rcases hloopback with rfl | rfl | rfl | ⟨b',c',d',hsplit',hb,hc,hd⟩
      · exact absurd (four_parts hsplit) (by decide)
      · exact absurd (four_parts hsplit) (by decide)
      · exact absurd (four_parts hsplit) (by decide)
      · rw [hsplit'] at hsplit
        cases hsplit
        exact hoctets ⟨hb,hc,hd⟩
  · intro hodd
    unfold isLoopbackHost at h
    split at h
    · rename_i hmem
      simp only [loopbackHosts,List.map_cons,List.map_nil,List.mem_cons,List.not_mem_nil,
        or_false] at hmem
      rcases hmem with rfl | rfl | rfl | rfl | rfl
      · exact .inr (.inr (.inr ⟨['0'],['0'],['1'],by decide,octet_zero,octet_zero,octet_one⟩))
      · exact .inr (.inr (.inr ⟨['0'],['0'],['0'],by decide,octet_zero,octet_zero,octet_zero⟩))
      · exact .inr (.inl rfl)
      · exact .inl rfl
      · exact absurd (.inl rfl) hodd
    · split at h
      · rename_i hstart
        obtain ⟨rest,rfl⟩ := List.isPrefixOf_iff_prefix.1 hstart
        have hsplit : ("127.".toList ++ rest).splitOn '.' = "127".toList :: rest.splitOn '.' :=
          List.splitOn_append_cons_self_of_not_mem (show '.' ∉ "127".toList by decide) rest
        simp only [hsplit,List.length_cons,Bool.and_eq_true,decide_eq_true_eq] at h
        obtain ⟨hlength,hdigits⟩ := h
        match hrest : rest.splitOn '.' with
        | [b,c,d] =>
          rw [hrest] at hsplit hdigits
          refine .inr (.inr (.inr ⟨b,c,d,hsplit,?_⟩))
          by_contra hoctets
          exact hodd (.inr ⟨b,c,d,hsplit,List.all_eq_true.1 hdigits,hoctets⟩)
        | [] | [_] | [_,_] | _ :: _ :: _ :: _ :: _ =>
          rw [hrest] at hlength
          simp at hlength
      · cases h

theorem odd_accepted {host : List Char} (h : OddHost U host) : isLoopbackHost U host = true := by
  unfold isLoopbackHost
  split
  · rfl
  · rename_i hknown
    rcases h with rfl | ⟨b,c,d,hsplit,hdigits,-⟩
    · exact absurd (by decide) hknown
    · have hstart : "127.".toList.isPrefixOf host = true := by
        have hhost : List.intercalate ['.'] (host.splitOn '.') = host :=
          List.intercalate_splitOn '.'
        rw [hsplit] at hhost
        rw [List.isPrefixOf_iff_prefix,← hhost]
        exact ⟨b ++ '.' :: (c ++ '.' :: d),by simp [List.intercalate]⟩
      rw [if_pos hstart]
      simp only [hsplit,Bool.and_eq_true]
      exact ⟨rfl,List.all_eq_true.2 hdigits⟩

theorem tcpHost_some {rest host : List Char} (h : tcpHost U rest = some host) :
    ∃ port, rest = host ++ ':' :: port ∧ ':' ∉ host ∧ host ≠ [] := by
  unfold tcpHost at h
  simp only at h
  split at h
  · rename_i c port hdrop
    split at h
    · rename_i hcond
      cases h
      have hc : c = ':' := by
        have hhead := List.head?_dropWhile_not (fun c : Char => decide (c ≠ ':')) rest
        rw [hdrop] at hhead
        simpa using hhead
      refine ⟨port,?_,?_,hcond.1⟩
      · have hrest := List.takeWhile_append_dropWhile (p := (· ≠ ':')) (l := rest)
        rw [hdrop,hc] at hrest
        exact hrest.symm
      · intro hmem
        have := List.mem_takeWhile_imp hmem
        simp at this
    · cases h
  · cases h

theorem not_prefix_tcp (rest : List Char) : ¬"inproc://".toList <+: "tcp://".toList ++ rest ∧
    ¬"ipc://".toList <+: "tcp://".toList ++ rest := by
  constructor
  · intro h
    obtain ⟨tail,h⟩ := h
    exact absurd (List.cons.inj h).1 (by decide)
  · intro h
    obtain ⟨tail,h⟩ := h
    exact absurd (List.cons.inj h).1 (by decide)

theorem bracket_refused : ¬isLoopbackHost U ['['] = true := by
  rw [isLoopbackHost,if_neg (by decide),if_neg (by decide)]
  exact Bool.false_ne_true

theorem allowed_tcp {rest host : List Char} (h : tcpHost U rest = some host)
    (hloopback : isLoopbackHost U host = true) :
    Allowed ("tcp://".toList ++ rest) ↔ LoopbackHost host := by
  obtain ⟨port,rfl,hcolon,hne⟩ := tcpHost_some h
  constructor
  · rintro (h | h | ⟨host',port',heq,hhost'⟩)
    · exact absurd h (not_prefix_tcp _).1
    · exact absurd h (not_prefix_tcp _).2
    · rw [List.append_assoc,List.append_cancel_left_eq] at heq
      have hsame (hcolon' : ':' ∉ host') : LoopbackHost host := by
        rw [(append_cons_inj_front hcolon hcolon' heq).1]
        exact hhost'
      rcases hhost' with rfl | rfl | rfl | hquad
      · exact hsame (by decide)
      · obtain ⟨c,cs,rfl⟩ := List.exists_cons_of_ne_nil hne
        have hc : c = ':' := (List.cons.inj heq).1
        exact absurd (hc ▸ List.mem_cons_self) hcolon
      · have hopen : host ++ ':' :: port = ['['] ++ ':' :: (":1]".toList ++ ':' :: port') := heq
        rw [(append_cons_inj_front hcolon (by decide) hopen).1] at hloopback
        exact absurd hloopback bracket_refused
      · exact hsame (colon_notMem_quad hquad)
  · intro hhost
    exact .inr (.inr ⟨host,port,by rw [List.append_assoc],hhost⟩)

theorem clean_iff {endpoint : List Char} : Clean U endpoint ↔
    (refusal U endpoint securityDefault = none → Allowed endpoint) := by
  have hcheck (rest : List Char) : refusal U ("tcp://".toList ++ rest) securityDefault = none ↔
      isLoopbackTcpEndpoint U rest = true := by
    have hstart : "tcp://".toList.isPrefixOf ("tcp://".toList ++ rest) = true :=
      List.isPrefixOf_iff_prefix.2 (List.prefix_append _ _)
    have hdrop : ("tcp://".toList ++ rest).drop 6 = rest := rfl
    rw [refusal,if_pos hstart,hdrop,checkTcpBind,if_neg (by decide)]
    split
    · rename_i h
      simp [h]
    · rename_i h
      simp [h]
  constructor
  · rintro (h | h | ⟨rest,rfl,hclean⟩) haccepted
    · exact .inl h
    · exact .inr (.inl h)
    · rw [hcheck,isLoopbackTcpEndpoint] at haccepted
      cases hhost : tcpHost U rest with
      | none =>
        rw [hhost] at haccepted
        cases haccepted
      | some host =>
        rw [hhost] at haccepted
        exact (allowed_tcp hhost haccepted).2 ((loopback_iff haccepted).2 (hclean host hhost))
  · intro h
    by_cases hstart : "tcp://".toList.isPrefixOf endpoint = true
    · obtain ⟨rest,rfl⟩ := List.isPrefixOf_iff_prefix.1 hstart
      refine .inr (.inr ⟨rest,rfl,fun host hhost hodd => ?_⟩)
      have haccepted : isLoopbackHost U host = true := odd_accepted hodd
      have htcp : isLoopbackTcpEndpoint U rest = true := by
        rw [isLoopbackTcpEndpoint,hhost]
        exact haccepted
      have hallowed := h ((hcheck rest).2 htcp)
      exact (loopback_iff haccepted).1 ((allowed_tcp hhost haccepted).1 hallowed) hodd
    · have hunchecked : refusal U endpoint securityDefault = none := if_neg hstart
      rcases h hunchecked with h | h | ⟨host,port,rfl,hhost⟩
      · exact .inl h
      · exact .inr (.inl h)
      · rw [List.append_assoc] at hstart
        exact absurd (List.isPrefixOf_iff_prefix.2 (List.prefix_append _ _)) hstart

end AgentCentric.Transport
