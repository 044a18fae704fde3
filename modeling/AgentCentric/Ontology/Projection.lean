import AgentCentric.Boot.Nodes
import AgentCentric.Network.Parse
import AgentCentric.Ontology.Closure

namespace AgentCentric
open Network (ComponentNetwork Component Direction Edge Value ParseError)
open Boot (ComponentKind ComponentManifest LockEntry)

structure ProjectionSource where
  scope : String
  network : List (String × Value)
  manifests : List (String × ComponentManifest)
  lock : List LockEntry

/-- An `OntologyError`, or what the parser of the network raises besides a `NetworkError`. -/
inductive ProjectionError where
  | ontology (e : OntologyError)
  | parse (e : ParseError)

/-- One side of a component, by a name that it declares or that an edge uses. -/
structure Port where
  component : String
  direction : Direction
  name : String
  deriving DecidableEq

def Port.term (scope : String) (p : Port) : String :=
  "urn:cbp:" ++ (scope ++ ("/port/" ++ (p.component ++ ("/" ++ (p.direction.name ++
    ("/" ++ p.name))))))

theorem Port.term_ne (scope : String) (p : Port) : p.term scope ≠ "" := by
  intro h
  have hlength := congrArg String.length h
  simp only [Port.term,String.length_append] at hlength
  have hurn : "urn:cbp:".length = 8 := by decide
  have hempty : "".length = 0 := by decide
  omega

namespace Projection

def kindClass : ComponentKind → Term
  | .atomic => classAtomic
  | .composite => classComposite
  | .model => classModel

def text (s : String) : Obj := .literal ⟨.str,.str s⟩

def portPredicate : Direction → String
  | .input => coreInput
  | .output => coreOutput

def portClass : Direction → Term
  | .input => classInputPort
  | .output => classOutputPort

/-- An assertion that is still to be checked. -/
abbrev Triple := String × String × Obj

def assert (t : Triple) : Except OntologyError Assertion := Assertion.new t.1 t.2.1 t.2.2

def portTriples (scope : String) (c : Component) (d : Direction) : List Triple :=
  (c.portNames d).flatMap fun name =>
    let port : Port := ⟨c.id,d,name⟩
    [(c.id,portPredicate d,.term ⟨port.term scope,port.term_ne scope⟩),
      (port.term scope,coreType,.term (portClass d)),
      (port.term scope,coreDirection,text d.name),
      (port.term scope,corePortType,text (c.portType d name).name)]

/-- `sorted` of what the manifest and the entry of the lock implement. -/
def interfaces (manifest : ComponentManifest) (entry : Option LockEntry) : List String :=
  sortStrings (manifest.implements ++ (entry.map LockEntry.implements).getD []).dedup

def componentTriples (scope : String) (c : Component) (manifest : ComponentManifest)
    (entry : Option LockEntry) : List Triple :=
  [(c.id,coreType,.term (kindClass manifest.kind)),
    (c.id,coreKind,text manifest.kind.name)] ++
  (manifest.capabilities.map fun capability =>
    (c.id,coreHasCapability,text (capability.name ++ "@" ++ capability.version))) ++
  ((interfaces manifest entry).map fun interface => (c.id,coreImplements,text interface)) ++
  portTriples scope c .input ++ portTriples scope c .output

def outPort (e : Edge) : Port := ⟨e.source,.output,e.sourceField⟩
def inPort (e : Edge) : Port := ⟨e.target,.input,e.targetArg⟩

def feedTriple (scope : String) (e : Edge) : Triple :=
  ((outPort e).term scope,coreFeeds,.term ⟨(inPort e).term scope,(inPort e).term_ne scope⟩)

end Projection

namespace ProjectionSource
open Projection

def invalidNetwork (message : String) : ProjectionError :=
  .ontology (malformed ("invalid scope network: " ++ message))

def parseFailure : ParseError → ProjectionError
  | .network message => invalidNetwork message
  | e => .parse e

def scopeNetwork (source : ProjectionSource) : Except ProjectionError ComponentNetwork := do
  let net ← (ComponentNetwork.fromDict source.network).mapError parseFailure
  net.validate.mapError invalidNetwork
  pure net

def componentAssertions (source : ProjectionSource) (c : Component) :
    Except ProjectionError (List Assertion) := do
  let manifests := Dict.empty.update source.manifests
  let lockByName := Dict.empty.update (source.lock.map fun entry => (entry.name,entry))
  let manifest ← expect (manifests.get c.id)
    (.ontology (malformed ("no component.v1 manifest for " ++ pyRepr c.id)))
  ((componentTriples source.scope c manifest (lockByName.get manifest.name)).mapM
    assert).mapError .ontology

def lockHash (sha256 : List Char → Digest) (lock : List LockEntry) : String :=
  if lock = [] then ""
  else (sha256 (Json.list ((lock.insertionSort fun a b => a.name ≤ b.name).map
    LockEntry.toDict)).bytes).text

def projectGraph (sha256 : List Char → Digest) (source : ProjectionSource) :
    Except ProjectionError SemanticGraph := do
  require (source.scope ≠ "") (.ontology (malformed "projection scope is empty"))
  let net ← source.scopeNetwork
  let components ← net.sortedComponents.mapM source.componentAssertions
  let feeds ← ((net.edges.map (feedTriple source.scope)).mapM assert).mapError .ontology
  let networkHash ← expect (net.contentHash sha256) (.parse .type)
  let sources := [("network_sha256",networkHash.text),
    ("lock_hash",lockHash sha256 source.lock)].filter fun e => e.2 ≠ ""
  (SemanticGraph.new source.scope (components.flatten ++ feeds) sources).mapError .ontology

end ProjectionSource
end AgentCentric

namespace AgentCentric
open Network (ComponentNetwork Component Direction Edge Value)
open Projection

theorem cut_eq {α : Type} {s : α} {a b a' b' : List α} : a ++ s :: b = a' ++ s :: b' ↔
    (a = a' ∧ b = b') ∨ (∃ r, a' = a ++ s :: r ∧ b = r ++ s :: b') ∨
      ∃ r, a = a' ++ s :: r ∧ b' = r ++ s :: b := by
  rw [List.append_eq_append_iff]
  constructor
  · rintro (⟨r,ha,hb⟩ | ⟨r,ha,hb⟩)
    · cases r with
      | nil => exact .inl ⟨by simpa using ha.symm,by simpa using hb⟩
      | cons x r =>
        obtain ⟨rfl,rfl⟩ := List.cons.inj hb
        exact .inr (.inl ⟨r,ha,rfl⟩)
    · cases r with
      | nil => exact .inl ⟨by simpa using ha,by simpa using hb.symm⟩
      | cons x r =>
        obtain ⟨rfl,rfl⟩ := List.cons.inj hb
        exact .inr (.inr ⟨r,ha,rfl⟩)
  · rintro (⟨rfl,rfl⟩ | ⟨r,rfl,rfl⟩ | ⟨r,rfl,rfl⟩)
    · exact .inl ⟨[],by simp⟩
    · exact .inl ⟨s :: r,by simp⟩
    · exact .inr ⟨s :: r,by simp⟩

namespace Port

/-- The id of a port as the id of another one with its direction behind it, and the name of that
other port with the direction and the name of this one at its end. -/
def Crosses (p q : Port) : Prop :=
  (q.component = p.component ++ "/" ++ p.direction.name ∧
    p.name = q.direction.name ++ "/" ++ q.name) ∨
  ∃ x, q.component = p.component ++ "/" ++ p.direction.name ++ "/" ++ x ∧
    p.name = x ++ "/" ++ q.direction.name ++ "/" ++ q.name

theorem direction_plain (d : Direction) : '/' ∉ d.name.toList := by
  cases d <;> decide

theorem direction_inj {d e : Direction} (h : d.name.toList = e.name.toList) : d = e := by
  cases d <;> cases e <;> first | rfl | exact absurd h (by decide)

def path (p : Port) : List Char :=
  p.component.toList ++ '/' :: (p.direction.name.toList ++ '/' :: p.name.toList)

theorem term_eq {scope : String} {p q : Port} : p.term scope = q.term scope ↔ p.path = q.path := by
  have hslash : "/".toList = ['/'] := by decide
  rw [← String.toList_inj]
  simp only [term,String.toList_append,List.append_cancel_left_eq,hslash,path]
  rfl

theorem crosses_iff {p q : Port} : p.Crosses q ↔
    ∃ r, q.component.toList = p.component.toList ++ '/' :: r ∧
      p.direction.name.toList ++ '/' :: p.name.toList =
        r ++ '/' :: (q.direction.name.toList ++ '/' :: q.name.toList) := by
  have hslash : "/".toList = ['/'] := by decide
  constructor
  · rintro (⟨hid,hname⟩ | ⟨x,hid,hname⟩)
    · exact ⟨p.direction.name.toList,by rw [hid]; simp [hslash],by rw [hname]; simp [hslash]⟩
    · exact ⟨p.direction.name.toList ++ '/' :: x.toList,by rw [hid]; simp [hslash],
        by rw [hname]; simp [hslash]⟩
  · rintro ⟨r,hid,hrest⟩
    rcases cut_eq.mp hrest with ⟨rfl,hname⟩ | ⟨x,rfl,hname⟩ | ⟨x,hdirection,-⟩
    · refine .inl ⟨String.toList_inj.mp ?_,String.toList_inj.mp ?_⟩
      · rw [hid]
        simp [hslash]
      · rw [hname]
        simp [hslash]
    · refine .inr ⟨String.ofList x,String.toList_inj.mp ?_,String.toList_inj.mp ?_⟩
      · rw [hid]
        simp [hslash]
      · rw [hname]
        simp [hslash]
    · -- a direction has no separator in it
      exact absurd (hdirection ▸ by simp) (direction_plain p.direction)

theorem term_inj {scope : String} {p q : Port} :
    p.term scope = q.term scope ↔ p = q ∨ p.Crosses q ∨ q.Crosses p := by
  rw [term_eq,path,path,cut_eq,crosses_iff,crosses_iff]
  have hsame : p.component.toList = q.component.toList ∧
      p.direction.name.toList ++ '/' :: p.name.toList =
        q.direction.name.toList ++ '/' :: q.name.toList ↔ p = q := by
    constructor
    · rintro ⟨hid,hrest⟩
      rcases cut_eq.mp hrest with ⟨hdirection,hname⟩ | ⟨x,hdirection,-⟩ | ⟨x,hdirection,-⟩
      · cases p
        cases q
        simp only [Port.mk.injEq]
        exact ⟨String.toList_inj.mp hid,direction_inj hdirection,String.toList_inj.mp hname⟩
      · exact absurd (hdirection ▸ by simp) (direction_plain q.direction)
      · exact absurd (hdirection ▸ by simp) (direction_plain p.direction)
    · rintro rfl
      exact ⟨rfl,rfl⟩
  rw [hsame]

theorem Crosses.longer {p q : Port} (h : p.Crosses q) :
    p.component.length < q.component.length := by
  obtain ⟨r,hid,-⟩ := crosses_iff.mp h
  have hlength := congrArg List.length hid
  simp only [List.length_append,List.length_cons,String.length_toList] at hlength
  omega

theorem Crosses.ne {p q : Port} (h : p.Crosses q) : p ≠ q := by
  rintro rfl
  exact absurd h.longer (Nat.lt_irrefl _)

end Port

namespace Projection

def Triple.fact (t : Triple) : Fact := ⟨t.1,t.2.1,t.2.2.val⟩

theorem assert_fact {t : Triple} {a : Assertion} (h : assert t = .ok a) : a.fact = t.fact := by
  simp only [assert,Assertion.new] at h
  split at h
  · cases h
    rfl
  · cases h

theorem asserted {ts : List Triple} {as : List Assertion} (h : ts.mapM assert = .ok as)
    (f : Fact) : (∃ a ∈ as, a.fact = f) ↔ ∃ t ∈ ts, t.fact = f := by
  constructor
  · rintro ⟨a,ha,rfl⟩
    obtain ⟨t,ht,hassert⟩ := (mem_mapM h).mp ha
    exact ⟨t,ht,(assert_fact hassert).symm⟩
  · rintro ⟨t,ht,rfl⟩
    obtain ⟨a,ha⟩ := mapM_returns.mp ⟨as,h⟩ t ht
    exact ⟨a,(mem_mapM h).mpr ⟨t,ht,ha⟩,assert_fact ha⟩

theorem mem_portTriples {scope : String} {c : Component} {d : Direction} {t : Triple} :
    t ∈ portTriples scope c d ↔ ∃ name ∈ c.portNames d,
      t = (c.id,portPredicate d,.term ⟨_,Port.term_ne scope ⟨c.id,d,name⟩⟩) ∨
      t = (Port.term scope ⟨c.id,d,name⟩,coreType,.term (portClass d)) ∨
      t = (Port.term scope ⟨c.id,d,name⟩,coreDirection,text d.name) ∨
      t = (Port.term scope ⟨c.id,d,name⟩,corePortType,text (c.portType d name).name) := by
  simp [portTriples]

def portPredicates : List String := [coreInput,coreOutput,corePortType,coreFeeds]

theorem portPredicate_inj {d e : Direction} : portPredicate d = portPredicate e ↔ d = e := by
  cases d <;> cases e <;> decide

theorem portPredicate_mem (d : Direction) : portPredicate d ∈ portPredicates := by
  cases d <;> decide

theorem mem_componentTriples {scope : String} {c : Component}
    {manifest : Boot.ComponentManifest} {entry : Option Boot.LockEntry} {t : Triple}
    (hp : t.2.1 ∈ portPredicates) : t ∈ componentTriples scope c manifest entry ↔
      ∃ d, ∃ name ∈ c.portNames d,
        t = (c.id,portPredicate d,.term ⟨_,Port.term_ne scope ⟨c.id,d,name⟩⟩) ∨
        t = (Port.term scope ⟨c.id,d,name⟩,corePortType,text (c.portType d name).name) := by
  have hapart : ∀ u ∈ [coreType,coreKind,coreHasCapability,coreImplements,coreDirection],
      u ∉ portPredicates := by decide
  have hother : ∀ u ∈ [coreType,coreKind,coreHasCapability,coreImplements,coreDirection],
      t.2.1 ≠ u := fun u hu heq => hapart u hu (heq ▸ hp)
  simp only [List.mem_cons,List.not_mem_nil,or_false,forall_eq_or_imp,forall_eq] at hother
  obtain ⟨htype,hkind,hcapability,himplements,hdirection⟩ := hother
  have hports : ∀ d, t ∈ portTriples scope c d ↔ ∃ name ∈ c.portNames d,
      t = (c.id,portPredicate d,.term ⟨_,Port.term_ne scope ⟨c.id,d,name⟩⟩) ∨
      t = (Port.term scope ⟨c.id,d,name⟩,corePortType,text (c.portType d name).name) := by
    intro d
    rw [mem_portTriples]
    constructor
    · rintro ⟨name,hname,h | h | h | h⟩
      · exact ⟨name,hname,.inl h⟩
      · exact absurd (congrArg (fun t : Triple => t.2.1) h) htype
      · exact absurd (congrArg (fun t : Triple => t.2.1) h) hdirection
      · exact ⟨name,hname,.inr h⟩
    · rintro ⟨name,hname,h | h⟩
      · exact ⟨name,hname,.inl h⟩
      · exact ⟨name,hname,.inr (.inr (.inr h))⟩
  simp only [componentTriples,List.mem_append,List.mem_cons,List.mem_map,List.not_mem_nil,
    or_false]
  constructor
  · rintro ((((h | ⟨_,_,h⟩) | ⟨_,_,h⟩) | h) | h)
    · rcases h with h | h
      · exact absurd (congrArg (fun t : Triple => t.2.1) h) htype
      · exact absurd (congrArg (fun t : Triple => t.2.1) h) hkind
    · exact absurd (congrArg (fun t : Triple => t.2.1) h.symm) hcapability
    · exact absurd (congrArg (fun t : Triple => t.2.1) h.symm) himplements
    · exact ⟨.input,(hports .input).mp h⟩
    · exact ⟨.output,(hports .output).mp h⟩
  · rintro ⟨d,h⟩
    cases d with
    | input => exact .inl (.inr ((hports .input).mpr h))
    | output => exact .inr ((hports .output).mpr h)

end Projection

namespace ProjectionSource
variable {sha256 : List Char → Digest} {source : ProjectionSource} {graph : SemanticGraph}

theorem projectGraph_facts (h : projectGraph sha256 source = .ok graph) :
    ∃ net, source.scopeNetwork = .ok net ∧ ∀ f, f.p ∈ portPredicates → (f ∈ graph.facts ↔
      (∃ c ∈ net.components, ∃ d, ∃ name ∈ c.portNames d,
        f = ⟨c.id,portPredicate d,.term (Port.term source.scope ⟨c.id,d,name⟩)⟩ ∨
        f = ⟨Port.term source.scope ⟨c.id,d,name⟩,corePortType,
          (text (c.portType d name).name).val⟩) ∨
      ∃ e ∈ net.edges, f = ⟨(outPort e).term source.scope,coreFeeds,
        .term ((inPort e).term source.scope)⟩) := by
  unfold projectGraph at h
  obtain ⟨_,_,h⟩ := bind_ok.mp h
  obtain ⟨net,hnet,h⟩ := bind_ok.mp h
  obtain ⟨components,hcomponents,h⟩ := bind_ok.mp h
  obtain ⟨feeds,hfeeds,h⟩ := bind_ok.mp h
  obtain ⟨_,_,hgraph⟩ := bind_ok.mp h
  have hfacts := SemanticGraph.facts_new (mapError_ok.mp hgraph)
  have hfed := asserted (mapError_ok.mp hfeeds)
  refine ⟨net,hnet,fun f hf => ?_⟩
  rw [hfacts]
  simp only [Set.mem_ofPred_eq,List.mem_append,List.mem_flatten]
  have hone : ∀ c ∈ net.sortedComponents, ∀ as, source.componentAssertions c = .ok as →
      ((∃ a ∈ as, a.fact = f) ↔ ∃ d, ∃ name ∈ c.portNames d,
        f = ⟨c.id,portPredicate d,.term (Port.term source.scope ⟨c.id,d,name⟩)⟩ ∨
        f = ⟨Port.term source.scope ⟨c.id,d,name⟩,corePortType,
          (text (c.portType d name).name).val⟩) := by
    intro c _ as has
    obtain ⟨manifest,_,has⟩ := bind_ok.mp has
    rw [asserted (mapError_ok.mp has)]
    constructor
    · rintro ⟨t,ht,rfl⟩
      obtain ⟨d,name,hname,rfl | rfl⟩ := (mem_componentTriples hf).mp ht
      · exact ⟨d,name,hname,.inl rfl⟩
      · exact ⟨d,name,hname,.inr rfl⟩
    · rintro ⟨d,name,hname,rfl | rfl⟩
      · exact ⟨_,(mem_componentTriples hf).mpr ⟨d,name,hname,.inl rfl⟩,rfl⟩
      · exact ⟨_,(mem_componentTriples hf).mpr ⟨d,name,hname,.inr rfl⟩,rfl⟩
  constructor
  · rintro ⟨a,⟨as,has,ha⟩ | ha,hfact⟩
    · obtain ⟨c,hc,hcas⟩ := (mem_mapM hcomponents).mp has
      exact .inl ⟨c,(List.mem_insertionSort _).mp hc,(hone c hc as hcas).mp ⟨a,ha,hfact⟩⟩
    · obtain ⟨t,ht,htf⟩ := (hfed f).mp ⟨a,ha,hfact⟩
      obtain ⟨e,he,rfl⟩ := List.mem_map.mp ht
      exact .inr ⟨e,he,htf.symm⟩
  · rintro (⟨c,hc,hports⟩ | ⟨e,he,rfl⟩)
    · have hsorted := (List.mem_insertionSort (Network.byName (·.id) · ·)).mpr hc
      obtain ⟨as,hcas⟩ := mapM_returns.mp ⟨_,hcomponents⟩ c hsorted
      obtain ⟨a,ha,hfact⟩ := (hone c hsorted as hcas).mpr hports
      exact ⟨a,.inl ⟨as,(mem_mapM hcomponents).mpr ⟨c,hsorted,hcas⟩,ha⟩,hfact⟩
    · obtain ⟨a,ha,hfact⟩ := (hfed _).mpr ⟨_,List.mem_map_of_mem he,rfl⟩
      exact ⟨a,.inr ha,hfact⟩

end ProjectionSource

namespace Projection

def declaredPorts (net : ComponentNetwork) : List Port :=
  net.components.flatMap fun c => [Direction.input,.output].flatMap fun d =>
    (c.portNames d).map fun name => ⟨c.id,d,name⟩

/-- The ports that the edges name; a component that declares no port of a direction may be wired
by any name there. -/
def wiredPorts (net : ComponentNetwork) : List Port :=
  net.edges.flatMap fun e => [outPort e,inPort e]

theorem mem_declaredPorts {net : ComponentNetwork} {p : Port} : p ∈ declaredPorts net ↔
    ∃ c ∈ net.components, c.id = p.component ∧ p.name ∈ c.portNames p.direction := by
  simp only [declaredPorts,List.mem_flatMap,List.mem_map]
  constructor
  · rintro ⟨c,hc,d,_,name,hname,rfl⟩
    exact ⟨c,hc,rfl,hname⟩
  · rintro ⟨c,hc,hid,hname⟩
    refine ⟨c,hc,p.direction,?_,p.name,hname,by rw [hid]⟩
    cases p.direction <;> simp

structure Attributed (scope : String) (net : ComponentNetwork) (graph : SemanticGraph) :
    Prop where
  distinct : ∀ p ∈ declaredPorts net, ∀ q ∈ declaredPorts net,
    p.term scope = q.term scope → p = q
  owned : ∀ p ∈ declaredPorts net, ∀ id d,
    ⟨id,portPredicate d,.term (p.term scope)⟩ ∈ graph.facts → id = p.component ∧ d = p.direction
  typed : ∀ p ∈ declaredPorts net, ∀ o, ⟨p.term scope,corePortType,o⟩ ∈ graph.facts →
    ∃ c ∈ net.components, c.id = p.component ∧ p.name ∈ c.portNames p.direction ∧
      o = (text (c.portType p.direction p.name).name).val
  wired : ∀ s o, ⟨s,coreFeeds,o⟩ ∈ graph.facts ↔ ∃ e ∈ net.edges,
    s = (outPort e).term scope ∧ o = .term ((inPort e).term scope)
  fed : ∀ p ∈ declaredPorts net, ∀ e ∈ net.edges,
    ((outPort e).term scope = p.term scope → outPort e = p) ∧
      ((inPort e).term scope = p.term scope → inPort e = p)

def Uncrossed (net : ComponentNetwork) : Prop :=
  ∀ p ∈ declaredPorts net, ∀ q ∈ declaredPorts net ++ wiredPorts net,
    ¬p.Crosses q ∧ ¬q.Crosses p

theorem Uncrossed.apart {net : ComponentNetwork} (h : Uncrossed net) {scope : String} {p q : Port}
    (hp : p ∈ declaredPorts net) (hq : q ∈ declaredPorts net ++ wiredPorts net)
    (hterm : q.term scope = p.term scope) : q = p := by
  obtain ⟨hpq,hqp⟩ := h p hp q hq
  rcases Port.term_inj.mp hterm with hsame | hcross | hcross
  · exact hsame
  · exact absurd hcross hqp
  · exact absurd hcross hpq

end Projection

namespace ProjectionSource
variable {sha256 : List Char → Digest} {source : ProjectionSource} {graph : SemanticGraph}
  {net : ComponentNetwork}

theorem attributed (hnet : source.scopeNetwork = .ok net)
    (h : projectGraph sha256 source = .ok graph) (huncrossed : Uncrossed net) :
    Attributed source.scope net graph := by
  obtain ⟨net',hnet',hfacts⟩ := projectGraph_facts h
  obtain rfl := Except.ok.inj (hnet.symm.trans hnet')
  have hdeclared {c : Component} {d : Direction} {name : String} (hc : c ∈ net.components)
      (hname : name ∈ c.portNames d) : (⟨c.id,d,name⟩ : Port) ∈ declaredPorts net :=
    mem_declaredPorts.mpr ⟨c,hc,rfl,hname⟩
  refine ⟨?_,?_,?_,?_,?_⟩
  · intro p hp q hq hterm
    exact huncrossed.apart hq (List.mem_append_left _ hp) hterm
  · intro p hp id d hfact
    rcases (hfacts _ (portPredicate_mem d)).mp hfact with
      ⟨c,hc,d',name,hname,heq | heq⟩ | ⟨e,_,heq⟩
    · simp only [Fact.mk.injEq,Val.term.injEq,portPredicate_inj] at heq
      obtain ⟨rfl,rfl,hterm⟩ := heq
      obtain rfl := huncrossed.apart hp (List.mem_append_left _ (hdeclared hc hname)) hterm.symm
      exact ⟨rfl,rfl⟩
    · simp [Fact.mk.injEq,text,Obj.val] at heq
    · have hpredicate := congrArg Fact.p heq
      revert hpredicate
      cases d <;> simp [portPredicate,coreFeeds,coreInput,coreOutput]
  · intro p hp o hfact
    rcases (hfacts _ (by simp [portPredicates])).mp hfact with
      ⟨c,hc,d,name,hname,heq | heq⟩ | ⟨e,_,heq⟩
    · have hpredicate := congrArg Fact.p heq
      revert hpredicate
      cases d <;> simp [portPredicate,corePortType,coreInput,coreOutput]
    · simp only [Fact.mk.injEq,true_and] at heq
      obtain ⟨hterm,rfl⟩ := heq
      obtain rfl := huncrossed.apart hp (List.mem_append_left _ (hdeclared hc hname)) hterm.symm
      exact ⟨c,hc,rfl,hname,rfl⟩
    · have hpredicate := congrArg Fact.p heq
      simp [corePortType,coreFeeds] at hpredicate
  · intro s o
    rw [hfacts _ (by simp [portPredicates])]
    constructor
    · rintro (⟨c,_,d,name,_,heq | heq⟩ | ⟨e,he,heq⟩)
      · have hpredicate := congrArg Fact.p heq
        revert hpredicate
        cases d <;> simp [portPredicate,coreFeeds,coreInput,coreOutput]
      · have hpredicate := congrArg Fact.p heq
        simp [corePortType,coreFeeds] at hpredicate
      · simp only [Fact.mk.injEq,true_and] at heq
        exact ⟨e,he,heq⟩
    · rintro ⟨e,he,rfl,rfl⟩
      exact .inr ⟨e,he,rfl⟩
  · intro p hp e he
    have hwired {q : Port} (hq : q ∈ [outPort e,inPort e]) :
        q ∈ declaredPorts net ++ wiredPorts net :=
      List.mem_append_right _ (List.mem_flatMap.mpr ⟨e,he,hq⟩)
    exact ⟨huncrossed.apart hp (hwired (by simp)),huncrossed.apart hp (hwired (by simp))⟩

/-- A projection keeps the ports of a network apart just where no declared port crosses another
port. -/
theorem attributed_iff (hnet : source.scopeNetwork = .ok net)
    (h : projectGraph sha256 source = .ok graph) :
    Attributed source.scope net graph ↔ Uncrossed net := by
  refine ⟨fun hattributed p hp q hq => ?_,attributed hnet h⟩
  have hsame : q.term source.scope = p.term source.scope → q = p := by
    intro hterm
    rcases List.mem_append.mp hq with hq | hq
    · exact hattributed.distinct q hq p hp hterm
    · obtain ⟨e,he,hq⟩ := List.mem_flatMap.mp hq
      have hfed := hattributed.fed p hp e he
      simp only [List.mem_cons,List.not_mem_nil,or_false] at hq
      rcases hq with rfl | rfl
      · exact hfed.1 hterm
      · exact hfed.2 hterm
  exact ⟨fun hcross => hcross.ne (hsame (Port.term_inj.mpr (.inr (.inr hcross)))).symm,
    fun hcross => hcross.ne (hsame (Port.term_inj.mpr (.inr (.inl hcross))))⟩

end ProjectionSource

namespace ProjectionScene

theorem tools_ne : "tools:run" ≠ "" := by decide

def manifest (name : String) (h : name ≠ "") : Boot.ComponentManifest :=
  Boot.Scene.manifestOf name "tools:run" h tools_ne

def entry (id port : String) : Value :=
  .dict [("id",.str id),("task",.str "run"),("ports",.dict [("in",.list [.str port])])]

def source (id₁ port₁ id₂ port₂ : String) (h₁ : id₁ ≠ "") (h₂ : id₂ ≠ "") : ProjectionSource where
  scope := "s"
  network := [("components",.list [entry id₁ port₁,entry id₂ port₂])]
  manifests := [(id₁,manifest id₁ h₁),(id₂,manifest id₂ h₂)]
  lock := []

def crossing : ProjectionSource := source "a" "b/in/c" "a/in/b" "c" Boot.Scene.a_ne (by decide)

def plain : ProjectionSource := source "a" "x" "b" "x" Boot.Scene.a_ne Boot.Scene.b_ne

theorem plain_projected : ∃ net graph, plain.scopeNetwork = .ok net ∧
    plain.projectGraph Digest.ofChars = .ok graph ∧
      ∀ p ∈ declaredPorts net ++ wiredPorts net, p.component.length = 1 := by
  have hnet : (plain.scopeNetwork.toOption.any fun net =>
      (declaredPorts net ++ wiredPorts net).all fun p => p.component.length = 1) = true := by
    decide +kernel
  have hgraph : ((plain.projectGraph Digest.ofChars).toOption.any fun _ => true) = true := by
    decide +kernel
  obtain ⟨net,hnet,hall⟩ := ok_of_any hnet
  obtain ⟨graph,hgraph,_⟩ := ok_of_any hgraph
  exact ⟨net,graph,hnet,hgraph,fun p hp => by simpa using List.all_eq_true.mp hall p hp⟩

end ProjectionScene

theorem ProjectionSource.attributed_plain : ∃ net graph,
    ProjectionScene.plain.scopeNetwork = .ok net ∧
      ProjectionScene.plain.projectGraph Digest.ofChars = .ok graph ∧
      Attributed "s" net graph := by
  obtain ⟨net,graph,hnet,hgraph,hall⟩ := ProjectionScene.plain_projected
  refine ⟨net,graph,hnet,hgraph,(ProjectionSource.attributed_iff hnet hgraph).mpr ?_⟩
  intro p hp q hq
  have hpq : p.component.length = q.component.length := by
    rw [hall p (List.mem_append_left _ hp),hall q hq]
  exact ⟨fun hcross => absurd hcross.longer (by omega),
    fun hcross => absurd hcross.longer (by omega)⟩

/-- The inport of one component and that of another one have the same term. -/
theorem ProjectionSource.crossing_merged : ∃ net graph p q,
    ProjectionScene.crossing.scopeNetwork = .ok net ∧
      ProjectionScene.crossing.projectGraph Digest.ofChars = .ok graph ∧
      p ∈ declaredPorts net ∧ q ∈ declaredPorts net ∧ p ≠ q ∧
      p.term ProjectionScene.crossing.scope = q.term ProjectionScene.crossing.scope := by
  have hnet : (ProjectionScene.crossing.scopeNetwork.toOption.any fun net =>
      declaredPorts net = [⟨"a",.input,"b/in/c"⟩,⟨"a/in/b",.input,"c"⟩]) = true := by
    decide +kernel
  have hgraph : ((ProjectionScene.crossing.projectGraph Digest.ofChars).toOption.any
      fun _ => true) = true := by decide +kernel
  obtain ⟨net,hnet,hports⟩ := ok_of_any hnet
  obtain ⟨graph,hgraph,_⟩ := ok_of_any hgraph
  rw [decide_eq_true_eq] at hports
  exact ⟨net,graph,⟨"a",.input,"b/in/c"⟩,⟨"a/in/b",.input,"c"⟩,hnet,hgraph,by simp [hports],
    by simp [hports],by decide,by decide⟩

end AgentCentric
