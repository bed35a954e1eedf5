import IndraMqtt.Kernel.Shared
import IndraMqtt.Lib.Template

/-! Tenant expressions. `render_expression` replaces the placeholders one after the other in a
growing text, so a value can bring a placeholder of its own, which a later replacement
fills. -/
namespace IndraMqtt.Kernel

open Protocol Template

variable {ctx : ConnectContext} {template : Str}

def isWhitespace (c : Char) : Bool :=
  let code := c.toNat
  (9 ≤ code && code ≤ 13) || code == 0x20 || code == 0x85 || code == 0xA0 || code == 0x1680 ||
    (0x2000 ≤ code && code ≤ 0x200A) || code == 0x2028 || code == 0x2029 || code == 0x202F ||
    code == 0x205F || code == 0x3000

def trim (text : Str) : Str :=
  ((text.dropWhile isWhitespace).reverse.dropWhile isWhitespace).reverse

def occursIn (pattern text : Str) : Bool := text.tails.any fun tail => pattern.isPrefixOf tail

def replaceLoop (pattern value : Str) : Nat → Str → Str
  | _, [] => []
  | skip + 1, _ :: rest => replaceLoop pattern value skip rest
  | 0, c :: rest =>
    if pattern.isPrefixOf (c :: rest) then
      value ++ replaceLoop pattern value (pattern.length - 1) rest
    else c :: replaceLoop pattern value 0 rest

def replace (text pattern value : Str) : Str := replaceLoop pattern value 0 text

def placeholder (name : String) : Str := "$\x7b".toList ++ name.toList ++ "\x7d".toList

def missing (value : Option Str) : Bool := value.elim true (·.isEmpty)

def substitutions (ctx : ConnectContext) : List (String × Str) :=
  [("clientid", ctx.clientId), ("client_id", ctx.clientId), ("username", ctx.username.getD []),
    ("peerhost", ctx.peerHost.getD []), ("host", ctx.peerHost.getD []),
    ("cert_cn", ctx.certCn.getD []), ("cert_subject", ctx.certSubject.getD []),
    ("cert_sans", (ctx.certSans.intersperse ",".toList).flatten), ("listener", ctx.listener)]

def refersToMissing (template : Str) (ctx : ConnectContext) : Bool :=
  let refers (name : String) := occursIn (placeholder name) template
  (refers "username" && missing ctx.username) ||
    ((refers "peerhost" || refers "host") && missing ctx.peerHost) ||
    (refers "cert_cn" && missing ctx.certCn) ||
    (refers "cert_subject" && missing ctx.certSubject) ||
    (refers "cert_sans" && ctx.certSans.isEmpty)

def renderExpression (template : Str) (ctx : ConnectContext) : Option Str :=
  if (trim template).isEmpty || refersToMissing template ctx then none
  else
    let rendered := (substitutions ctx).foldl
      (fun text value => replace text (placeholder value.1) value.2) template
    if occursIn "$\x7b".toList rendered then none
    else
      let trimmed := trim rendered
      if trimmed.isEmpty then none else some trimmed

/-! ### All placeholders at once -/

def placeholders (ctx : ConnectContext) : List (Str × Str) :=
  (substitutions ctx).map fun value => (placeholder value.1, value.2)

def simultaneous (template : Str) (ctx : ConnectContext) : Str :=
  substitute (placeholders ctx) template

def renderAtOnce (template : Str) (ctx : ConnectContext) : Option Str :=
  if (trim template).isEmpty || refersToMissing template ctx then none
  else
    let trimmed := trim (simultaneous template ctx)
    if trimmed.isEmpty then none else some trimmed

theorem occursIn_iff {pattern text : Str} : occursIn pattern text = true ↔ pattern <:+: text := by
  rw [occursIn, List.any_eq_true, List.infix_iff_prefix_suffix]
  constructor
  · grind [List.mem_tails]
  · rintro ⟨tail, hStart, hTail⟩
    exact ⟨tail, (List.mem_tails _ _).mpr hTail, List.isPrefixOf_iff_prefix.mpr hStart⟩

theorem replaceLoop_eq (pattern value : Str) (skip : Nat) (text : Str) :
    replaceLoop pattern value skip text = substituteLoop [(pattern, value)] skip text := by
  induction text generalizing skip with
  | nil => cases skip <;> rfl
  | cons c text ih =>
    cases skip with
    | succ skip => exact ih skip
    | zero => grind [replaceLoop, substituteLoop]

theorem replace_eq (text pattern value : Str) :
    replace text pattern value = substitute [(pattern, value)] text :=
  replaceLoop_eq pattern value 0 text

def placeholderNames : List String :=
  ["clientid", "client_id", "username", "peerhost", "host", "cert_cn", "cert_subject",
    "cert_sans", "listener"]

theorem marked_placeholders (ctx : ConnectContext) :
    Marked '$' '\x7b' ((placeholders ctx).map Prod.fst) := by
  have hPatterns : (placeholders ctx).map Prod.fst = placeholderNames.map placeholder := rfl
  have hShape : ((placeholderNames.map placeholder).all fun p =>
      (p == '$' :: '\x7b' :: p.drop 2) && !(p.drop 1).contains '$') = true := by decide +kernel
  have hUnique : ((placeholderNames.map placeholder).all fun p =>
      (placeholderNames.map placeholder).all fun q => !p.isPrefixOf q || p == q) = true := by
    decide +kernel
  have hNodup : (placeholderNames.map placeholder).Nodup := by decide +kernel
  rw [hPatterns]
  constructor
  case shape => grind
  case unique => grind
  case nodup => exact hNodup

/-- Where the substituted text shows no opening of a placeholder, the successive replacements
are a simultaneous one. -/
theorem successive_eq_simultaneous
    (hPlain : occursIn "$\x7b".toList (simultaneous template ctx) = false) :
    (substitutions ctx).foldl (fun text value => replace text (placeholder value.1) value.2)
      template = simultaneous template ctx := by
  have hFold : (substitutions ctx).foldl
      (fun text value => replace text (placeholder value.1) value.2) template =
      (placeholders ctx).foldl (fun text entry => substitute [entry] text) template := by
    rw [placeholders, List.foldl_map]
    simp [replace_eq]
  rw [hFold]
  apply (marked_placeholders ctx).foldl_substitute (by decide)
  grind [simultaneous, occursIn_iff]

theorem renderExpression_eq (hPlain : occursIn "$\x7b".toList (simultaneous template ctx) = false) :
    renderExpression template ctx = renderAtOnce template ctx := by
  simp_all [renderExpression, renderAtOnce, successive_eq_simultaneous]

theorem renderAtOnce_eq_some {tenant : Str} (hRender : renderAtOnce template ctx = some tenant) :
    tenant = trim (simultaneous template ctx) := by
  grind [renderAtOnce]

/-- The username stands between pieces that do not depend on it. -/
theorem simultaneous_pieces (template : Str) (ctx : ConnectContext) :
    ∃ (first : Str) (pieces : List Str),
      (∀ username, simultaneous template { ctx with username } =
        first ++ pieces.flatMap fun piece => username.getD [] ++ piece) ∧
      (occursIn (placeholder "username") template = true → pieces ≠ []) := by
  have hMarked : ∀ value, Marked '$' '\x7b' (((placeholders ctx).take 2 ++
      (placeholder "username", value) :: (placeholders ctx).drop 3).map Prod.fst) :=
    fun value => marked_placeholders { ctx with username := some value }
  obtain ⟨first, pieces, hEq, hSome⟩ := Marked.exists_pieces hMarked template
  refine ⟨first, pieces, fun username => hEq (username.getD []), fun hOccurs => ?_⟩
  exact hSome (occursIn_iff.mp hOccurs)

/-- An expression that shows no opening of a placeholder once its values are filled in renders
as if they were filled in at once. Two usernames that give it the same tenant are then the
same up to the blanks around them. -/
theorem render_at_once {template : Str} {ctx : ConnectContext}
    (hPlain : occursIn "$\x7b".toList (simultaneous template ctx) = false) :
    renderExpression template ctx = renderAtOnce template ctx ∧
      ∀ (username : Option Str) (tenant : Str),
        occursIn (placeholder "username") template = true →
        occursIn "$\x7b".toList (simultaneous template { ctx with username }) = false →
        renderExpression template ctx = some tenant →
        renderExpression template { ctx with username } = some tenant →
        trim (ctx.username.getD []) = trim (username.getD []) := by
  refine ⟨renderExpression_eq hPlain, ?_⟩
  intro username tenant hMentions hPlain' hRender hRender'
  rw [renderExpression_eq hPlain] at hRender
  rw [renderExpression_eq hPlain'] at hRender'
  obtain ⟨first, pieces, hPieces, hSome⟩ := simultaneous_pieces template ctx
  have hOwn : simultaneous template ctx =
      first ++ pieces.flatMap fun piece => ctx.username.getD [] ++ piece := hPieces ctx.username
  have hSame : trim (simultaneous template ctx) =
      trim (simultaneous template { ctx with username }) :=
    (renderAtOnce_eq_some hRender).symm.trans (renderAtOnce_eq_some hRender')
  rw [hOwn, hPieces username] at hSame
  exact strip_eq_of_pieces (hSome hMentions) hSame

def loginContext (clientId : Str) (username : Option Str) : ConnectContext :=
  { clientId, username, peerHost := none, listener := [], certCn := none, certSubject := none
    certSans := [], userProperties := none }

/-- The usernames `acme` and `acme` with a blank behind it give one tenant. -/
theorem plain_usernames_at_once :
    renderExpression ("eu-".toList ++ placeholder "username")
        (loginContext "meter".toList (some "acme".toList)) =
      renderAtOnce ("eu-".toList ++ placeholder "username")
        (loginContext "meter".toList (some "acme".toList)) ∧
    trim "acme".toList = trim "acme ".toList := by
  have hPlain : occursIn "$\x7b".toList (simultaneous ("eu-".toList ++ placeholder "username")
      (loginContext "meter".toList (some "acme".toList))) = false := by decide +kernel
  have hRender := render_at_once hPlain
  refine ⟨hRender.1, hRender.2 (some "acme ".toList) "eu-acme".toList ?_ ?_ ?_ ?_⟩
  all_goals decide +kernel

/-- A client id with a placeholder in it is filled with the username, or with nothing where
the certificate is absent, and blanks around a username are lost. -/
theorem client_id_reinterpreted :
    renderExpression (placeholder "clientid")
        (loginContext (placeholder "username") (some "acme".toList)) = some "acme".toList ∧
    simultaneous (placeholder "clientid")
        (loginContext (placeholder "username") (some "acme".toList)) = placeholder "username" ∧
    renderExpression (placeholder "clientid")
        (loginContext ("a-".toList ++ placeholder "cert_cn") none) = some "a-".toList ∧
    renderExpression (placeholder "username")
        (loginContext "meter".toList (some "acme".toList)) = some "acme".toList ∧
    renderExpression (placeholder "username")
        (loginContext "meter".toList (some " acme".toList)) = some "acme".toList := by
  decide +kernel

end IndraMqtt.Kernel
