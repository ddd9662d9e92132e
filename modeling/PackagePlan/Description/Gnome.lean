/-
  The built-in description: the GLib and GTK stack as a configuration layer, the core runtime and
  the toolkit.
-/
import PackagePlan.Description.Basic

namespace PackagePlan.PackageDescription

/-- The configuration headers. -/
private def gnomeConfiguration : Target :=
  { name := "GLibConf", path := ⟨"Sources/GLibConf"⟩, publicHeaders := some ⟨"."⟩ }

/-- The core runtime. -/
private def gnomeRuntime : Target :=
  { name := "GLib"
    dependencies := ["GLibConf"]
    path := ⟨"Sources/GLib"⟩
    sources := [⟨"gio"⟩, ⟨"gvdb"⟩, ⟨"proxy-libintl"⟩, ⟨"gmodule"⟩, ⟨"glib"⟩]
    exclude := ["glib/tests"]
    publicHeaders := some ⟨"."⟩
    headerSearchPaths := [⟨"gio"⟩, ⟨"glib"⟩, ⟨"gvdb"⟩, ⟨"proxy-libintl"⟩, ⟨"gmodule"⟩] }

/-- The toolkit. -/
private def gnomeToolkit : Target :=
  { name := "Gtk"
    dependencies := ["GLib"]
    path := ⟨"Sources/Gtk"⟩
    sources := [⟨"gtk"⟩, ⟨"gdk"⟩]
    exclude := [
      "gtk/theme",
      "gtk/ui",
      "gtk/timsort/COPYING",
      "gtk/timsort/README.md",
      "gtk/text-input-unstable-v3.xml",
      "gtk/print/ui/gtkpagesetupunixdialog.ui",
      "gtk/print/ui/gtkprintunixdialog.ui",
      "gtk/print/meson.build",
      "gtk/roaring/COPYING",
      "gtk/roaring/README.md"]
    publicHeaders := some ⟨"."⟩ }

/-- For older toolchains: every product, any platform. -/
private def gnomeLegacy : VariantSpec := { minToolsVersion := ⟨5, 5, 0⟩ }

/-- For current toolchains: the toolkit alone, on recent platforms. -/
private def gnomeCurrent : VariantSpec :=
  { minToolsVersion := ⟨5, 9, 0⟩
    products := .only ["Gtk"]
    platforms := ⟨.ofList [
      (.macos, ⟨14, 0, 0⟩), (.ios, ⟨17, 0, 0⟩), (.tvos, ⟨17, 0, 0⟩), (.watchos, ⟨10, 0, 0⟩),
      (.visionos, ⟨1, 0, 0⟩)]⟩
    extraExclude := .ofList [("GLib", ["tests"])] }

/-- The description used when a project brings none of its own. -/
def gnome : PackageDescription :=
  { name := "GNOME"
    cLanguageStandard := some .gnu17
    targets := [gnomeConfiguration, gnomeRuntime, gnomeToolkit]
    products := [⟨"GLibConf", ["GLibConf"]⟩, ⟨"GLib", ["GLib"]⟩, ⟨"Gtk", ["Gtk"]⟩]
    variants := .ofList [("current", gnomeCurrent), ("legacy", gnomeLegacy)] }

end PackagePlan.PackageDescription
