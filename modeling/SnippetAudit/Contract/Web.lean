import SnippetAudit.Contract.Shape

/-!
# Web components

The contracts of the web components for app pages, whose tags start with `s-`. A tag stands for a type of
component, and the type names the contract. Every element also takes the attributes that all elements
have.

## What this module delivers

- `webTags`: the type of each tag;
- `webContracts`: the contracts with their names.
-/

set_option autoImplicit false

namespace SnippetAudit.Contract

open Shape

/-- The tones of an element. -/
def tone : Value := choice ["auto", "neutral", "info", "success", "caution", "warning", "critical"]

/-- The attributes that all elements have. -/
def elementProperties : Members Value :=
  [("id", string), ("class", string), ("className", string), ("slot", string), ("key", string),
   ("ref", string)]

/-- The attributes of fields that text is typed into. -/
def fieldProperties : Members Value :=
  [("label", string), ("labelAccessibilityVisibility", choice ["visible", "exclusive"]),
   ("name", string), ("value", string), ("defaultValue", string), ("placeholder", string),
   ("details", string), ("error", string), ("disabled", boolean), ("readOnly", boolean),
   ("required", boolean), ("autocomplete", string), ("onChange", handler), ("onInput", handler),
   ("onFocus", handler), ("onBlur", handler)]

/-- The attributes of boxes. -/
def boxProperties : Members Value :=
  [("accessibilityLabel", string), ("accessibilityRole", string),
   ("accessibilityVisibility", choice ["visible", "hidden", "exclusive"]),
   ("background", choice ["transparent", "base", "subdued", "strong"]), ("blockSize", string),
   ("border", string), ("borderColor", string), ("borderRadius", string), ("borderStyle", string),
   ("borderWidth", string), ("display", choice ["auto", "none"]), ("inlineSize", string),
   ("maxBlockSize", string), ("maxInlineSize", string), ("minBlockSize", string),
   ("minInlineSize", string), ("overflow", choice ["visible", "hidden"]), ("padding", string),
   ("paddingBlock", string), ("paddingBlockEnd", string), ("paddingBlockStart", string),
   ("paddingInline", string), ("paddingInlineEnd", string), ("paddingInlineStart", string)]

/-- The contract of an element with its required and its own attributes. -/
def element (required : List String) (properties : Members Value) : Members Value :=
  component required (elementProperties ++ properties)

/-- The type of each tag. -/
def webTags : Members String :=
  [("s-badge", "Badge"), ("s-banner", "Banner"), ("s-box", "Box"), ("s-button", "Button"),
   ("s-checkbox", "Checkbox"), ("s-choice", "Choice"), ("s-choice-list", "ChoiceList"),
   ("s-clickable", "Clickable"), ("s-date-picker", "DatePicker"), ("s-divider", "Divider"),
   ("s-email-field", "EmailField"), ("s-grid", "Grid"), ("s-grid-item", "GridItem"),
   ("s-heading", "Heading"), ("s-icon", "Icon"), ("s-image", "Image"), ("s-link", "Link"),
   ("s-money-field", "MoneyField"), ("s-number-field", "NumberField"), ("s-option", "Option"),
   ("s-page", "Page"), ("s-paragraph", "Paragraph"), ("s-password-field", "PasswordField"),
   ("s-query-container", "QueryContainer"), ("s-search-field", "SearchField"),
   ("s-section", "Section"), ("s-select", "Select"), ("s-spinner", "Spinner"),
   ("s-stack", "Stack"), ("s-switch", "Switch"), ("s-table", "Table"),
   ("s-table-body", "TableBody"), ("s-table-cell", "TableCell"),
   ("s-table-header", "TableHeader"), ("s-table-header-row", "TableHeaderRow"),
   ("s-table-row", "TableRow"), ("s-text", "Text"), ("s-text-area", "TextArea"),
   ("s-text-field", "TextField"), ("s-url-field", "URLField")]

/-- The contracts with their names. -/
def webContracts : Members (Members Value) :=
  [
    ("BadgeSchema", element [] <|
      [("color", choice ["base", "strong"]), ("icon", string),
       ("size", choice ["base", "large", "large-100"]), ("tone", tone)]),
    ("BannerSchema", element [] <|
      [("dismissible", boolean), ("heading", string), ("hidden", boolean), ("tone", tone),
       ("onDismiss", handler), ("onAfterHide", handler)]),
    ("BoxSchema", element [] boxProperties),
    ("ButtonSchema", element [] <|
      [("accessibilityLabel", string),
       ("command", choice ["--auto", "--show", "--hide", "--toggle"]), ("commandFor", string),
       ("disabled", boolean), ("download", string), ("href", string), ("icon", string),
       ("loading", boolean), ("target", choice ["auto", "_self", "_blank"]),
       ("tone", choice ["auto", "neutral", "critical"]),
       ("type", choice ["button", "submit", "reset"]),
       ("variant", choice ["auto", "primary", "secondary", "tertiary"]), ("onClick", handler),
       ("onclick", handler), ("onFocus", handler), ("onBlur", handler)]),
    ("CheckboxSchema", element [] <|
      [("accessibilityLabel", string), ("checked", boolean), ("defaultChecked", boolean),
       ("defaultIndeterminate", boolean), ("details", string), ("disabled", boolean),
       ("error", string), ("indeterminate", boolean), ("label", string), ("name", string),
       ("required", boolean), ("value", string), ("onChange", handler), ("onInput", handler)]),
    ("ChoiceSchema", element [] <|
      [("accessibilityLabel", string), ("defaultSelected", boolean), ("disabled", boolean),
       ("selected", boolean), ("value", string)]),
    ("ChoiceListSchema", element [] <|
      [("details", string), ("disabled", boolean), ("error", string), ("label", string),
       ("labelAccessibilityVisibility", choice ["visible", "exclusive"]), ("multiple", boolean),
       ("name", string), ("values", listOf string), ("onChange", handler), ("onInput", handler)]),
    ("ClickableSchema", element [] <|
      boxProperties ++
      [("command", choice ["--auto", "--show", "--hide", "--toggle"]), ("commandFor", string),
       ("disabled", boolean), ("download", string), ("href", string), ("loading", boolean),
       ("target", choice ["auto", "_self", "_blank"]),
       ("type", choice ["button", "submit", "reset"]), ("onClick", handler)]),
    ("DatePickerSchema", element [] <|
      [("allow", string), ("allowDays", string), ("defaultValue", string),
       ("defaultView", string), ("disallow", string), ("disallowDays", string), ("name", string),
       ("type", string), ("value", string), ("view", string), ("onBlur", handler),
       ("onChange", handler), ("onFocus", handler), ("onInput", handler),
       ("onViewChange", handler)]),
    ("DividerSchema", element [] <|
      [("color", choice ["base", "strong"]), ("direction", choice ["inline", "block"])]),
    ("EmailFieldSchema", element [] <|
      fieldProperties ++
      [("maxLength", number), ("minLength", number)]),
    ("GridSchema", element [] <|
      boxProperties ++
      [("alignContent", string), ("alignItems", string), ("columnGap", string), ("gap", string),
       ("gridTemplateColumns", string), ("gridTemplateRows", string), ("justifyContent", string),
       ("justifyItems", string), ("placeContent", string), ("placeItems", string),
       ("rowGap", string)]),
    ("GridItemSchema", element [] <|
      boxProperties ++
      [("gridColumn", string), ("gridRow", string)]),
    ("HeadingSchema", element [] <|
      [("accessibilityRole", choice ["heading", "presentation", "none"]),
       ("accessibilityVisibility", choice ["visible", "hidden", "exclusive"]),
       ("lineClamp", number)]),
    ("IconSchema", element [] <|
      [("color", choice ["base", "subdued"]), ("interestFor", string),
       ("size", choice ["small", "base"]), ("tone", tone), ("type", string)]),
    ("ImageSchema", element [] <|
      [("accessibilityRole", choice ["img", "presentation", "none"]), ("alt", string),
       ("aspectRatio", string), ("border", string), ("borderRadius", string),
       ("inlineSize", choice ["auto", "fill"]), ("loading", choice ["eager", "lazy"]),
       ("objectFit", choice ["contain", "cover"]), ("sizes", string), ("src", string),
       ("srcSet", string), ("onLoad", handler), ("onError", handler)]),
    ("LinkSchema", element [] <|
      [("accessibilityLabel", string),
       ("command", choice ["--auto", "--show", "--hide", "--toggle"]), ("commandFor", string),
       ("download", string), ("href", string), ("lang", string),
       ("target", choice ["auto", "_self", "_blank"]),
       ("tone", choice ["auto", "neutral", "critical"]), ("onClick", handler)]),
    ("MoneyFieldSchema", element [] <|
      fieldProperties ++
      [("max", number), ("min", number)]),
    ("NumberFieldSchema", element [] <|
      fieldProperties ++
      [("inputMode", choice ["decimal", "numeric"]), ("max", number), ("min", number),
       ("step", number), ("prefix", string), ("suffix", string)]),
    ("OptionSchema", element [] <|
      [("defaultSelected", boolean), ("disabled", boolean), ("selected", boolean),
       ("value", string)]),
    ("PageSchema", element [] <|
      [("heading", string), ("inlineSize", choice ["small", "base", "large"])]),
    ("ParagraphSchema", element [] <|
      [("accessibilityVisibility", choice ["visible", "hidden", "exclusive"]),
       ("color", choice ["base", "subdued"]), ("dir", choice ["ltr", "rtl", "auto", ""]),
       ("fontVariantNumeric", choice ["auto", "normal", "tabular-nums"]), ("lineClamp", number),
       ("tone", tone)]),
    ("PasswordFieldSchema", element [] <|
      fieldProperties ++
      [("maxLength", number), ("minLength", number)]),
    ("QueryContainerSchema", element [] <|
      [("containerName", string)]),
    ("SearchFieldSchema", element [] <|
      fieldProperties ++
      [("maxLength", number), ("minLength", number)]),
    ("SectionSchema", element [] <|
      [("accessibilityLabel", string), ("heading", string), ("padding", choice ["base", "none"])]),
    ("SelectSchema", element [] <|
      (fieldProperties.filter fun pair => !(["onInput", "readOnly"].contains pair.1)) ++
      [("icon", string)]),
    ("SpinnerSchema", element [] <|
      [("accessibilityLabel", string), ("size", choice ["base", "large", "large-100"])]),
    ("StackSchema", element [] <|
      boxProperties ++
      [("alignContent", string), ("alignItems", string), ("columnGap", string),
       ("direction", choice ["inline", "block"]), ("gap", string), ("justifyContent", string),
       ("rowGap", string)]),
    ("SwitchSchema", element [] <|
      [("accessibilityLabel", string), ("checked", boolean), ("defaultChecked", boolean),
       ("details", string), ("disabled", boolean), ("error", string), ("label", string),
       ("labelAccessibilityVisibility", choice ["visible", "exclusive"]), ("name", string),
       ("required", boolean), ("value", string), ("onChange", handler), ("onInput", handler)]),
    ("TableSchema", element [] <|
      [("hasNextPage", boolean), ("hasPreviousPage", boolean), ("loading", boolean),
       ("paginate", boolean), ("variant", choice ["auto", "list"]), ("onNextPage", handler),
       ("onPreviousPage", handler)]),
    ("TableBodySchema", element [] []),
    ("TableCellSchema", element [] []),
    ("TableHeaderSchema", element [] <|
      [("format", choice ["base", "numeric", "currency"]),
       ("listSlot", choice ["primary", "secondary", "kicker", "inline", "labeled"])]),
    ("TableHeaderRowSchema", element [] []),
    ("TableRowSchema", element [] <|
      [("clickDelegate", string)]),
    ("TextSchema", element [] <|
      [("accessibilityVisibility", choice ["visible", "hidden", "exclusive"]),
       ("color", choice ["base", "subdued"]), ("dir", choice ["ltr", "rtl", "auto", ""]),
       ("fontVariantNumeric", choice ["auto", "normal", "tabular-nums"]), ("interestFor", string),
       ("tone", tone),
       ("type", choice ["address", "redundant", "mark", "emphasis", "offset", "strong", "small", "generic"])]),
    ("TextAreaSchema", element [] <|
      fieldProperties ++
      [("maxLength", number), ("minLength", number), ("rows", number)]),
    ("TextFieldSchema", element [] <|
      fieldProperties ++
      [("icon", string), ("maxLength", number), ("minLength", number), ("prefix", string),
       ("suffix", string)]),
    ("URLFieldSchema", element [] <|
      fieldProperties ++
      [("maxLength", number), ("minLength", number)])
  ]

end SnippetAudit.Contract
