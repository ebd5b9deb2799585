import SnippetAudit.Contract.Shape

/-!
# Retail components

The contracts of the components for extensions of the point of sale. The name of a contract starts with the
name of its component.

## What this module delivers

- `retailContracts`: the contracts with their names.
-/

set_option autoImplicit false

namespace SnippetAudit.Contract.Retail

open Shape

/-- The attributes of fields that text is typed into. -/
def fieldProperties : Members Value :=
  [("label", string), ("value", string), ("placeholder", string), ("helpText", string),
   ("error", string), ("disabled", boolean), ("required", boolean), ("action", string),
   ("onChange", callback), ("onInput", callback), ("onFocus", callback), ("onBlur", callback)]

/-- The contracts with their names. -/
def retailContracts : Members (Members Value) :=
  [
    ("BadgePropsSchema", component ["text", "variant"] <|
      [("status", choice ["empty", "partial", "complete"]), ("text", string),
       ("variant", choice ["neutral", "critical", "warning", "success", "highlight"])]),
    ("BannerPropsSchema", component ["title", "variant", "visible"] <|
      [("action", string), ("hideAction", boolean), ("onPress", callback), ("title", string),
       ("variant", choice ["confirmation", "alert", "error", "information"]),
       ("visible", boolean)]),
    ("BoxPropsSchema", component [] <|
      [("blockSize", string), ("inlineSize", string), ("maxBlockSize", string),
       ("maxInlineSize", string), ("minBlockSize", string), ("minInlineSize", string),
       ("padding", string), ("paddingBlock", string), ("paddingInline", string)]),
    ("ButtonPropsSchema", component [] <|
      [("isDisabled", boolean), ("isLoading", boolean), ("onPress", callback), ("title", string),
       ("type", choice ["primary", "basic", "destructive", "plain"])]),
    ("CameraScannerPropsSchema", component [] <|
      [("bannerProps", record [("title", string), ("variant", string), ("visible", boolean)])]),
    ("CameraScannerBannerPropsSchema", component ["title", "variant", "visible"] <|
      [("title", string), ("variant", choice ["confirmation", "alert", "error", "information"]),
       ("visible", boolean)]),
    ("DateFieldPropsSchema", component ["label"] <|
      [("action", string), ("disabled", boolean), ("error", string), ("helpText", string),
       ("label", string), ("onBlur", callback), ("onChange", callback), ("onFocus", callback),
       ("value", string)]),
    ("DatePickerPropsSchema", component [] <|
      [("inputMode", choice ["inline", "spinner"]), ("onChange", callback), ("selected", string),
       ("visibleState", list)]),
    ("DialogPropsSchema", component ["title", "actionText", "isVisible"] <|
      [("actionText", string), ("content", string), ("isVisible", boolean),
       ("onAction", callback), ("onSecondaryAction", callback), ("secondaryActionText", string),
       ("showSecondaryAction", boolean), ("title", string),
       ("type", choice ["default", "alert", "destructive", "error"])]),
    ("EmailFieldPropsSchema", component ["label"] fieldProperties),
    ("IconPropsSchema", component ["name"] <|
      [("name", string),
       ("size", choice ["s", "m", "l", "minor", "major", "spot", "caption", "badge"]),
       ("tone", choice ["icon-primary", "icon-subdued", "icon-critical", "icon-warning", "icon-success", "icon-interactive"])]),
    ("ImagePropsSchema", component [] <|
      [("size", choice ["s", "m", "l", "xl"]), ("src", string)]),
    ("ListPropsSchema", component ["data"] <|
      [("data", list), ("imageDisplayStrategy", choice ["automatic", "always", "never"]),
       ("isLoadingMore", boolean), ("listHeaderComponent", callback), ("onEndReached", callback),
       ("title", string)]),
    ("NavigatorPropsSchema", component [] <|
      [("initialScreenName", string)]),
    ("NewTextFieldPropsSchema", component ["label"] <|
      fieldProperties ++
      [("maxLength", number)]),
    ("NumberFieldPropsSchema", component ["label"] <|
      fieldProperties ++
      [("inputMode", choice ["decimal", "numeric"]), ("max", number), ("maxLength", number),
       ("min", number)]),
    ("POSBlockPropsSchema", component [] <|
      [("action", record [("title", string), ("disabled", boolean), ("onPress", callback)])]),
    ("POSBlockRowPropsSchema", component [] <|
      [("onPress", callback)]),
    ("PinPadPropsSchema", component ["onSubmit"] <|
      [("label", string), ("masked", boolean), ("maxPinLength", number), ("minPinLength", number),
       ("onPinEntry", callback), ("onSubmit", callback), ("pinPadAction", string)]),
    ("PrintPreviewPropsSchema", component ["src"] <|
      [("src", string)]),
    ("QRCodePropsSchema", component ["value"] <|
      [("value", string)]),
    ("RadioButtonListPropsSchema", component ["items", "onItemSelected"] <|
      [("initialOffsetToShowSelectedItem", boolean), ("initialSelectedItem", string),
       ("items", listOf string), ("onItemSelected", callback)]),
    ("ScreenPropsSchema", component ["name", "title"] <|
      [("isLoading", boolean), ("name", string), ("onNavigate", callback),
       ("onNavigateBack", callback), ("onReceiveParams", callback),
       ("overrideNavigateBack", callback), ("presentation", record [("sheet", boolean)]),
       ("secondaryAction", record [("text", string), ("onPress", callback), ("isEnabled", boolean)]),
       ("title", string)]),
    ("ScreenPresentationPropsSchema", component [] <|
      [("sheet", boolean)]),
    ("ScrollViewPropsSchema", component [] []),
    ("SearchBarPropsSchema", component [] <|
      [("editable", boolean), ("initialValue", string), ("onFocus", callback),
       ("onSearch", callback), ("onTextChange", callback), ("placeholder", string)]),
    ("SectionPropsSchema", component [] <|
      [("action", record [("title", string), ("onPress", callback)]), ("title", string)]),
    ("SectionHeaderPropsSchema", component ["title"] <|
      [("action", record [("label", string), ("onPress", callback), ("disabled", boolean)]),
       ("hideDivider", boolean), ("title", string)]),
    ("SecondaryActionPropsSchema", component ["text", "onPress"] <|
      [("isEnabled", boolean), ("onPress", callback), ("text", string)]),
    ("SegmentedControlPropsSchema", component ["segments", "selected", "onSelect"] <|
      [("onSelect", callback), ("segments", list), ("selected", string)]),
    ("SelectablePropsSchema", component [] <|
      [("disabled", boolean), ("onPress", callback)]),
    ("StackPropsSchema", component [] <|
      [("alignContent", choice ["stretch"]),
       ("alignItems", choice ["stretch", "baseline", "center", "flex-start", "flex-end"]),
       ("blockSize", string), ("columnGap", string),
       ("direction", choice ["inline", "block", "vertical", "horizontal"]), ("flex", number),
       ("flexChildren", boolean), ("flexWrap", choice ["wrap", "nowrap", "wrap-reverse"]),
       ("gap", string), ("inlineSize", string), ("justifyContent", string), ("padding", string),
       ("paddingBlock", string), ("paddingHorizontal", string), ("paddingInline", string),
       ("paddingVertical", string), ("rowGap", string), ("spacing", string)]),
    ("StepperPropsSchema", component ["initialValue", "onValueChanged"] <|
      [("disabled", boolean), ("initialValue", number), ("maximumValue", number),
       ("minimumValue", number), ("onValueChanged", callback), ("value", number)]),
    ("TextPropsSchema", component [] <|
      [("color", string),
       ("variant", choice ["body", "bodyLg", "bodyMd", "bodySm", "captionMedium", "captionRegular", "captionRegularTall", "display", "headingLarge", "headingSmall", "sectionHeader"])]),
    ("TextAreaPropsSchema", component ["label"] <|
      fieldProperties ++
      [("initialLines", number), ("maxLength", number)]),
    ("TextFieldPropsSchema", component ["label"] <|
      fieldProperties ++
      [("maxLength", number)]),
    ("TilePropsSchema", component ["title"] <|
      [("badgeValue", number), ("destructive", boolean), ("enabled", boolean),
       ("onPress", callback), ("subtitle", string), ("title", string)]),
    ("TimeFieldPropsSchema", component ["label"] <|
      [("action", string), ("disabled", boolean), ("error", string), ("helpText", string),
       ("is24Hour", boolean), ("label", string), ("onBlur", callback), ("onChange", callback),
       ("onFocus", callback), ("value", string)]),
    ("TimePickerPropsSchema", component ["visibleState"] <|
      [("inputMode", choice ["inline", "spinner"]), ("is24Hour", boolean), ("onChange", callback),
       ("selected", string), ("visibleState", list)]),
    ("ToggleSwitchSchema", component [] <|
      [("disabled", boolean), ("value", boolean)])
  ]

end SnippetAudit.Contract.Retail
